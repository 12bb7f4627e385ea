import Monopoly.Lib.Lots
import Monopoly.Spec.Play

/-!
# Monopoly.Spec.Streets

The spaces of a table as lots: who owns a street, what stands on it and
whether it is mortgaged; what the building commands check of its color group,
and what every other command does to the lots.
-/

namespace Monopoly

/-- The streets of a color group. -/
def streets (mode : GameMode) (color : PropertyColor) : Set Nat :=
  {pos | pos ∈ positionsInColorGroup color mode}

/-- The spaces as lots. -/
def GameState.lots (s : GameState) : Lots PlayerId Nat where
  owner pos := (ownershipAt s.spaces pos).ownerId
  level pos := buildingLevel (ownershipAt s.spaces pos)
  pledged pos := (ownershipAt s.spaces pos).isMortgaged = true

/-! ## color groups -/

set_option maxRecDepth 4000 in
/-- The squares of a group are of its color. -/
theorem colorGroup_of_mem {mode : GameMode} {color : PropertyColor} {pos : Nat}
    (h : pos ∈ streets mode color) : (squareAt mode pos).type = .property ∧
      (squareAt mode pos).colorGroup = some color := by
  have hall : ∀ pos ∈ positionsInColorGroup color mode, (squareAt mode pos).type = .property ∧
      (squareAt mode pos).colorGroup = some color := by
    cases mode <;> cases color <;> decide
  exact hall pos h

theorem buildingLevel_eq_zero {o : SpaceOwnership} :
    buildingLevel o = 0 ↔ o.houses = 0 ∧ o.hasHotel = false := by
  unfold buildingLevel
  cases o.hasHotel <;> simp

section Lookups

variable {mode : GameMode} {spaces : List SpaceOwnership} {pos : Nat} {o : SpaceOwnership}

/-- What a lookup returns is the record of a board position. -/
theorem spaceAt_ok (h : Layout mode spaces) (hat : spaceAt spaces pos = .ok o) :
    OnBoard mode pos ∧ o = ownershipAt spaces pos := by
  by_cases hpos : OnBoard mode pos
  · rw [spaceAt_eq h hpos] at hat
    exact ⟨hpos, (Except.ok.inj hat).symm⟩
  · simp [spaceAt_off h hpos] at hat

/-- The record of a position after an edit. -/
theorem ownershipAt_edited (h : Layout mode spaces) {g : SpaceOwnership → SpaceOwnership}
    (hg : ∀ o, (g o).position = o.position) (pos : Nat) : ownershipAt (spaces.map g) pos =
      if OnBoard mode pos then g (ownershipAt spaces pos) else ownershipAt spaces pos := by
  by_cases hpos : OnBoard mode pos
  · rw [if_pos hpos, ownershipAt_map h hpos hg]
  · rw [if_neg hpos, ownershipAt_off h hpos, ownershipAt_off (h.map hg) hpos]

theorem ownershipAt_editSpace (h : Layout mode spaces) (hpos : OnBoard mode pos)
    {f : SpaceOwnership → SpaceOwnership} (hf : ∀ o, (f o).position = o.position) (q : Nat) :
    ownershipAt (editSpace pos f spaces) q =
      if q = pos then f (ownershipAt spaces pos) else ownershipAt spaces q := by
  have hedit := ownershipAt_edited h (g := fun o => if o.position = pos then f o else o)
    (fun o => by split <;> simp [hf]) q
  rw [show ownershipAt (editSpace pos f spaces) q = _ from hedit]
  by_cases hq : OnBoard mode q
  · rw [if_pos hq, (ownershipAt_mem h hq).2]
    by_cases hqp : q = pos <;> simp [hqp]
  · have hqp : q ≠ pos := fun hqp => hq (hqp ▸ hpos)
    rw [if_neg hq, if_neg hqp]

theorem groupLevels_eq (h : Layout mode spaces) {group : List Nat}
    (hgroup : ∀ q ∈ group, OnBoard mode q) : groupLevels spaces group =
      .ok (group.map fun q => buildingLevel (ownershipAt spaces q)) := by
  induction group with
  | nil => rfl
  | cons q rest ih =>
      rw [groupLevels, spaceAt_eq h (hgroup q List.mem_cons_self), ok_bind,
        ih fun r hr => hgroup r (List.mem_cons_of_mem _ hr)]
      rfl

theorem pyMin_le {xs : List Nat} {least : Nat} (h : pyMin xs = .ok least) :
    ∀ x ∈ xs, least ≤ x := by
  cases hmin : xs.min? with
  | none => simp [pyMin, hmin, orRaise] at h
  | some a =>
      obtain rfl : a = least := by simpa [pyMin, hmin, orRaise] using h
      exact (List.min?_eq_some_iff.mp hmin).2

theorem le_pyMax {xs : List Nat} {most : Nat} (h : pyMax xs = .ok most) : ∀ x ∈ xs, x ≤ most := by
  cases hmax : xs.max? with
  | none => simp [pyMax, hmax, orRaise] at h
  | some a =>
      obtain rfl : a = most := by simpa [pyMax, hmax, orRaise] using h
      exact (List.max?_eq_some_iff.mp hmax).2

theorem pyMax_eq {xs : List Nat} {most : Nat} (hmem : most ∈ xs) (hmost : ∀ x ∈ xs, x ≤ most) :
    pyMax xs = .ok most := by
  rw [pyMax, List.max?_eq_some_iff.mpr ⟨hmem, hmost⟩]
  rfl

/-- A yes to owning a group unmortgaged is about each of its positions. -/
theorem ownsAllUnmortgaged_ensures (h : Layout mode spaces) (pid : PlayerId) (group : List Nat) :
    Ensures (ownsAllUnmortgaged pid spaces group) fun b => b = true →
      ∀ q ∈ group, (ownershipAt spaces q).ownerId = some pid ∧
        (ownershipAt spaces q).isMortgaged = false := by
  induction group with
  | nil => simp [ownsAllUnmortgaged]
  | cons q rest ih =>
      refine .after fun o hat => ?_
      obtain ⟨-, rfl⟩ := spaceAt_ok h hat
      simp only [sat_ite, sat_pure]
      refine ⟨fun _ => by simp, fun hown => ih.imp fun b hb hyes => ?_⟩
      have hboth := not_or.mp hown
      exact List.forall_mem_cons.mpr
        ⟨⟨not_not.mp hboth.1, by simpa using hboth.2⟩, hb hyes⟩

theorem groupUnbuilt_ensures (h : Layout mode spaces) (group : List Nat) :
    Ensures (groupUnbuilt spaces group) fun b => b = true →
      ∀ q ∈ group, buildingLevel (ownershipAt spaces q) = 0 := by
  induction group with
  | nil => simp [groupUnbuilt]
  | cons q rest ih =>
      refine .after fun o hat => ?_
      obtain ⟨-, rfl⟩ := spaceAt_ok h hat
      simp only [sat_ite, sat_pure]
      refine ⟨fun _ => by simp, fun hnone => ih.imp fun b hb hyes => ?_⟩
      have hboth := not_or.mp hnone
      exact List.forall_mem_cons.mpr
        ⟨buildingLevel_eq_zero.mpr ⟨by omega, by simpa using hboth.2⟩, hb hyes⟩

end Lookups

/-! ## the building commands -/

/-- One more house; the fifth is a hotel. -/
def addHouse (o : SpaceOwnership) : SpaceOwnership :=
  if o.houses = 4 then { o with houses := 0, hasHotel := true }
  else { o with houses := o.houses + 1 }

/-- One house less; a hotel becomes four houses. -/
def removeHouse (o : SpaceOwnership) : SpaceOwnership :=
  if o.hasHotel then { o with houses := 4, hasHotel := false }
  else { o with houses := o.houses - 1 }

theorem addHouse_kept (o : SpaceOwnership) : (addHouse o).position = o.position ∧
    (addHouse o).ownerId = o.ownerId ∧ (addHouse o).isMortgaged = o.isMortgaged := by
  unfold addHouse
  split <;> exact ⟨rfl, rfl, rfl⟩

theorem removeHouse_kept (o : SpaceOwnership) : (removeHouse o).position = o.position ∧
    (removeHouse o).ownerId = o.ownerId ∧ (removeHouse o).isMortgaged = o.isMortgaged := by
  unfold removeHouse
  split <;> exact ⟨rfl, rfl, rfl⟩

theorem buildingLevel_addHouse {o : SpaceOwnership} (h : o.hasHotel = false) :
    buildingLevel (addHouse o) = buildingLevel o + 1 := by
  unfold addHouse
  split <;> simp [buildingLevel, *]

theorem buildingLevel_removeHouse {o : SpaceOwnership} (h : 0 < buildingLevel o) :
    buildingLevel (removeHouse o) + 1 = buildingLevel o := by
  unfold removeHouse buildingLevel at *
  cases hhotel : o.hasHotel with
  | true => simp
  | false => simp [hhotel] at h ⊢; omega

/-- A house that is sold is the one that was built. -/
theorem removeHouse_addHouse {o : SpaceOwnership} (h : o.hasHotel = false) :
    removeHouse (addHouse o) = o := by
  unfold addHouse
  split
  · rename_i hfour
    simp [removeHouse, ← hfour, ← h]
  · simp [removeHouse, ← h]

/-- What an accepted building command checks of the color group, and how it
leaves the spaces. -/
inductive Worked (s : GameState) (pid : PlayerId) (pos : Nat) :
    GameCommand → List SpaceOwnership → Prop
  | raised {color : PropertyColor} : pos ∈ streets s.gameMode color →
      (ownershipAt s.spaces pos).hasHotel = false →
      (∀ q ∈ streets s.gameMode color, (ownershipAt s.spaces q).ownerId = some pid ∧
        (ownershipAt s.spaces q).isMortgaged = false) →
      (∀ q ∈ streets s.gameMode color, s.lots.level pos ≤ s.lots.level q) →
      Worked s pid pos (.buildHouse pid pos) (editSpace pos addHouse s.spaces)
  | lowered {color : PropertyColor} : pos ∈ streets s.gameMode color →
      0 < s.lots.level pos →
      (∀ q ∈ streets s.gameMode color, s.lots.level q ≤ s.lots.level pos) →
      Worked s pid pos (.sellHouse pid pos) (editSpace pos removeHouse s.spaces)
  | mortgaged : OnBoard s.gameMode pos → (ownershipAt s.spaces pos).ownerId = some pid →
      (∀ color, pos ∈ streets s.gameMode color →
        ∀ q ∈ streets s.gameMode color, s.lots.level q = 0) →
      Worked s pid pos (.mortgage pid pos)
        (editSpace pos (fun o => { o with isMortgaged := true }) s.spaces)
  | redeemed : OnBoard s.gameMode pos →
      Worked s pid pos (.unmortgage pid pos)
        (editSpace pos (fun o => { o with isMortgaged := false }) s.spaces)

section Worked

variable {s : GameState} {pid : PlayerId} {pos : Nat}

theorem mem_streets (hpos : OnBoard s.gameMode pos) {color : PropertyColor}
    (hcolor : (squareAt s.gameMode pos).colorGroup = some color) :
    pos ∈ streets s.gameMode color :=
  mem_colorGroup hpos hcolor

/-- What a yes to building means. -/
theorem canBuildOn_ensures (hlayout : Layout s.gameMode s.spaces) :
    Ensures (canBuildOn s pid pos) fun b => b = true →
    ∃ color, pos ∈ streets s.gameMode color ∧ (ownershipAt s.spaces pos).hasHotel = false ∧
      (∀ q ∈ streets s.gameMode color, (ownershipAt s.spaces q).ownerId = some pid ∧
        (ownershipAt s.spaces q).isMortgaged = false) ∧
      ∀ q ∈ streets s.gameMode color, s.lots.level pos ≤ s.lots.level q := by
  refine .after fun player hplayer => .after fun ownership hat => ?_
  have hid := (getPlayer_found hplayer).2
  obtain ⟨hpos, rfl⟩ := spaceAt_ok hlayout hat
  simp only [getBoardSpace_eq hpos, ok_bind, sat_ite, sat_pure]
  refine ⟨fun _ => by simp, fun _ => ?_⟩
  split
  · rename_i color _ hcolor
    have hgroup := onBoard_colorGroup s.gameMode color
    simp only [sat_ite, sat_pure]
    refine ⟨fun _ => by simp, fun hfree => .after fun monopoly hmonopoly => ?_⟩
    simp only [sat_ite, sat_pure]
    refine ⟨fun _ => by simp, fun hyes => ?_⟩
    simp only [groupLevels_eq hlayout hgroup, ok_bind]
    refine .after fun least hleast => ?_
    simp only [sat_ite, sat_pure]
    refine ⟨fun _ => by simp, fun hmin => ⟨fun _ => by simp, fun _ _ => ?_⟩⟩
    refine ⟨color, mem_streets hpos hcolor, by simpa using (not_or.mp hfree).2, ?_, fun q hq => ?_⟩
    · obtain rfl : monopoly = true := by simpa using hyes
      rw [← hid]
      unfold playerOwnsMonopoly at hmonopoly
      split at hmonopoly
      · cases hmonopoly
      · exact (ownsAllUnmortgaged_ensures hlayout _ _).of_ok hmonopoly rfl
    · exact Nat.le_trans (Nat.not_lt.mp hmin)
        (pyMin_le hleast _ (List.mem_map_of_mem (f := fun q => buildingLevel _) hq))
  · simp

theorem canSellOn_ensures (hlayout : Layout s.gameMode s.spaces) :
    Ensures (canSellOn s pid pos) fun b => b = true →
    ∃ color, pos ∈ streets s.gameMode color ∧ 0 < s.lots.level pos ∧
      ∀ q ∈ streets s.gameMode color, s.lots.level q ≤ s.lots.level pos := by
  refine .after fun player _ => .after fun ownership hat => ?_
  obtain ⟨hpos, rfl⟩ := spaceAt_ok hlayout hat
  simp only [getBoardSpace_eq hpos, ok_bind, sat_ite, sat_pure]
  refine ⟨fun _ => by simp, fun _ => ?_⟩
  split
  · rename_i color _ hcolor
    simp only [sat_ite, sat_pure]
    refine ⟨fun _ => by simp, fun hbuilt => ?_⟩
    simp only [groupLevels_eq hlayout (onBoard_colorGroup _ _), ok_bind]
    refine .after fun most hmost => ?_
    simp only [sat_pure, decide_eq_true_eq]
    intro hlevel
    refine ⟨color, mem_streets hpos hcolor, Nat.pos_of_ne_zero fun hzero => ?_, fun q hq => ?_⟩
    · obtain ⟨hhouses, hhotel⟩ := buildingLevel_eq_zero.mp hzero
      simp [hhouses, hhotel] at hbuilt
    · exact Nat.le_trans (le_pyMax hmost _ (List.mem_map_of_mem (f := fun q => buildingLevel _) hq))
        (Nat.le_of_eq hlevel.symm)
  · simp

/-- A built street of the highest level of its group may be sold on. -/
theorem canSellOn_true (hs : Laid s) {p : PlayerState} (hp : p ∈ s.players)
    {color : PropertyColor} (hmem : pos ∈ streets s.gameMode color)
    (howner : (ownershipAt s.spaces pos).ownerId = some p.id) (hbuilt : 0 < s.lots.level pos)
    (hmost : ∀ q ∈ streets s.gameMode color, s.lots.level q ≤ s.lots.level pos) :
    canSellOn s p.id pos = .ok true := by
  have hpos := onBoard_colorGroup s.gameMode color pos hmem
  obtain ⟨htype, hcolor⟩ := colorGroup_of_mem hmem
  have hlevel : ¬((ownershipAt s.spaces pos).houses = 0 ∧
      ¬(ownershipAt s.spaces pos).hasHotel = true) := by
    rintro ⟨hhouses, hhotel⟩
    have hzero := buildingLevel_eq_zero.mpr ⟨hhouses, by simpa using hhotel⟩
    exact Nat.ne_of_gt hbuilt hzero
  have hmax : pyMax ((positionsInColorGroup color s.gameMode).map fun q =>
      buildingLevel (ownershipAt s.spaces q)) = .ok (s.lots.level pos) := by
    refine pyMax_eq (List.mem_map_of_mem (f := fun q => buildingLevel _) hmem) fun x hx => ?_
    obtain ⟨q, hq, rfl⟩ := List.mem_map.mp hx
    exact hmost q hq
  simp only [canSellOn, hs.getPlayer hp, spaceAt_eq hs.layout hpos, getBoardSpace_eq hpos, ok_bind,
    howner, ne_eq, not_true_eq_false, if_false, htype, hcolor, if_neg hlevel,
    groupLevels_eq hs.layout (onBoard_colorGroup _ _), hmax]
  exact congrArg Except.ok (decide_eq_true rfl)

theorem canMortgage_ensures (hlayout : Layout s.gameMode s.spaces) :
    Ensures (canMortgage s pid pos) fun b => b = true →
    (ownershipAt s.spaces pos).ownerId = some pid ∧ ∀ color, pos ∈ streets s.gameMode color →
      ∀ q ∈ streets s.gameMode color, s.lots.level q = 0 := by
  refine .after fun player hplayer => .after fun ownership hat => ?_
  obtain ⟨hpos, rfl⟩ := spaceAt_ok hlayout hat
  simp only [getBoardSpace_eq hpos, ok_bind, sat_ite, sat_pure]
  refine ⟨fun _ => by simp, fun howner => ⟨fun _ => by simp, fun _ => ?_⟩⟩
  refine .after fun unbuilt hunbuilt => ?_
  simp only [sat_ite, sat_pure]
  refine ⟨fun _ => by simp, fun hyes => ensures_iff.mpr fun _ _ _ => ⟨?_, fun color hmem => ?_⟩⟩
  · rw [← (getPlayer_found hplayer).2]
    exact not_not.mp (not_or.mp howner).1
  · obtain rfl : unbuilt = true := by simpa using hyes
    obtain ⟨htype, hcolor⟩ := colorGroup_of_mem hmem
    simp only [groupAllowsMortgage, htype, hcolor] at hunbuilt
    exact (groupUnbuilt_ensures hlayout _).of_ok hunbuilt rfl

theorem canMortgage_unpledged (hlayout : Layout s.gameMode s.spaces) :
    Ensures (canMortgage s pid pos) fun b => b = true →
    (ownershipAt s.spaces pos).isMortgaged = false := by
  refine .after fun player _ => .after fun ownership hat => ?_
  obtain ⟨-, rfl⟩ := spaceAt_ok hlayout hat
  simp only [sat_ite, sat_pure]
  refine ⟨fun _ => by simp, fun hfree => ⟨fun _ => by simp, fun _ => ensures_iff.mpr ?_⟩⟩
  intro _ _ _
  simpa using (not_or.mp hfree).2

/-- A mortgage may be redeemed by an owner who has the cash. -/
theorem canUnmortgage_eq (hs : Laid s) {p : PlayerState} (hp : p ∈ s.players)
    (hpos : OnBoard s.gameMode pos) (howner : (ownershipAt s.spaces pos).ownerId = some p.id)
    (hmortgaged : (ownershipAt s.spaces pos).isMortgaged = true) : canUnmortgage s p.id pos = .ok
      (decide (p.balance ≥ unmortgageCost ((squareAt s.gameMode pos).mortgageValue.getD 0))) := by
  simp only [canUnmortgage, hs.getPlayer hp, spaceAt_eq hs.layout hpos, getBoardSpace_eq hpos,
    ok_bind, howner, hmortgaged, ne_eq, not_true_eq_false, or_self, if_false]
  rfl

theorem updateHolding_spaces (hs : Sound s) (pid : PlayerId) (hpos : OnBoard s.gameMode pos)
    (f : SpaceOwnership → SpaceOwnership) (player : PlayerState) (delta : Int) :
    Ensures (updateHolding s pid player pos (f (ownershipAt s.spaces pos)) delta)
      fun s' => s'.spaces = editSpace pos f s.spaces := by
  refine .after fun spaces hreplace => .after fun _ _ => .after fun _ _ => .after fun _ _ => ?_
  rw [replaceSpace_eq hs.layout hpos f] at hreplace
  exact (Except.ok.inj hreplace).symm

theorem buildHouse_worked (hs : Sound s) : Ensures (buildHouse s pid pos) fun s' =>
    Worked s pid pos (.buildHouse pid pos) s'.spaces := by
  refine (canBuildOn_ensures hs.layout).seq fun allowed hallowed => .guard fun hyes => ?_
  obtain ⟨color, hmem, hhotel, howner, hleast⟩ := hallowed (by simpa using hyes)
  have hworked := Worked.raised hmem hhotel howner hleast
  refine .after fun player _ => .after fun ownership hat => .after fun _ _ => ?_
  obtain ⟨hpos, rfl⟩ := spaceAt_ok hs.layout hat
  simp only [sat_ite]
  constructor
  · intro hfour
    have hadd := updateHolding_spaces hs pid hpos addHouse player
    simp only [addHouse, if_pos hfour] at hadd
    exact (hadd _).seq fun s' hs' => hs' ▸ hworked
  · intro hfew
    have hadd := updateHolding_spaces hs pid hpos addHouse player
    simp only [addHouse, if_neg hfew] at hadd
    exact (hadd _).seq fun s' hs' => hs' ▸ hworked

theorem sellHouse_worked (hs : Sound s) : Ensures (sellHouse s pid pos) fun s' =>
    Worked s pid pos (.sellHouse pid pos) s'.spaces := by
  refine (canSellOn_ensures hs.layout).seq fun allowed hallowed => .guard fun hyes => ?_
  obtain ⟨color, hmem, hbuilt, hmost⟩ := hallowed (by simpa using hyes)
  have hworked : Worked s pid pos (.sellHouse pid pos) _ := Worked.lowered hmem hbuilt hmost
  refine .after fun player _ => .after fun ownership hat => .after fun _ _ => ?_
  obtain ⟨hpos, rfl⟩ := spaceAt_ok hs.layout hat
  have hremove := updateHolding_spaces hs pid hpos removeHouse player
  simp only [sat_ite]
  constructor
  · intro hhotel
    simp only [removeHouse, if_pos hhotel] at hremove
    exact (hremove _).seq fun s' hs' => hs' ▸ hworked
  · intro hnone
    simp only [removeHouse, if_neg hnone] at hremove
    exact (hremove _).seq fun s' hs' => hs' ▸ hworked

theorem mortgageProperty_worked (hs : Sound s) : Ensures (mortgageProperty s pid pos) fun s' =>
    Worked s pid pos (.mortgage pid pos) s'.spaces := by
  refine (canMortgage_ensures hs.layout).seq fun allowed hallowed => .guard fun hyes => ?_
  obtain ⟨howner, hgroup⟩ := hallowed (by simpa using hyes)
  refine .after fun player _ => .after fun _ _ => .after fun ownership hat => ?_
  obtain ⟨hpos, rfl⟩ := spaceAt_ok hs.layout hat
  refine (updateHolding_spaces hs pid hpos (fun o => { o with isMortgaged := true }) _ _).imp ?_
  exact fun s' hs' => hs' ▸ Worked.mortgaged hpos howner hgroup

theorem unmortgageProperty_worked (hs : Sound s) : Ensures (unmortgageProperty s pid pos) fun s' =>
    Worked s pid pos (.unmortgage pid pos) s'.spaces := by
  refine .after fun allowed _ => .guard fun _ => ?_
  refine .after fun player _ => .after fun _ _ => .after fun ownership hat => ?_
  obtain ⟨hpos, rfl⟩ := spaceAt_ok hs.layout hat
  refine (updateHolding_spaces hs pid hpos (fun o => { o with isMortgaged := false }) _ _).imp ?_
  exact fun s' hs' => hs' ▸ Worked.redeemed hpos

variable {s' : GameState} {call : Call}

/-- The end of a call leaves the spaces. -/
theorem finishCommand_spaces (s : GameState) (command : GameCommand) (env : Env) (m : GameState)
    (events : List GameEvent) :
    Ensures (finishCommand s command env m events) fun s' => s'.spaces = m.spaces := by
  have hactions : ∀ a : GameState, Ensures (withActions a) fun s' => s'.spaces = a.spaces :=
    fun _ => .after fun _ _ => rfl
  have hreset : (resetActor m command).spaces = m.spaces := by
    unfold resetActor
    split <;> rfl
  have hcard : (clearActiveCard s (resetActor m command) command).spaces = m.spaces := by
    unfold clearActiveCard
    split <;> exact hreset
  have htransfer : ∀ (a : GameState) pid creditor amount,
      Ensures (transferFunds a pid creditor amount) fun s' => s'.spaces = a.spaces := by
    refine fun a pid creditor amount => .after fun _ _ => .after fun _ _ => .after fun _ _ => ?_
    cases creditor with
    | none => rfl
    | some c => exact .after fun _ _ => .after fun _ _ => .after fun _ _ => rfl
  have hsettle : ∀ a : GameState, Ensures (trySettleDebt a) fun s' => s'.spaces = a.spaces := by
    intro a
    unfold trySettleDebt
    cases a.bankruptcy with
    | none => rfl
    | some debt =>
        refine .after fun debtor _ => ?_
        split
        · exact (htransfer _ _ _ _).seq fun _ h => h
        · rfl
  have hcheck : ∀ a : GameState, (checkWinCondition a).spaces = a.spaces := by
    intro a
    have hspec := checkWinCondition_spec a
    generalize checkWinCondition a = c at hspec
    cases hspec <;> rfl
  unfold finishCommand
  simp only [sat_ite]
  refine ⟨fun _ => (hactions _).imp fun _ h => h.trans hreset, fun _ => ?_⟩
  refine (hsettle _).seq fun n hn => (hactions _).imp fun _ h => ?_
  exact h.trans ((hcheck n).trans (hn.trans hcard))

/-- An accepted building command has passed the checks of its color group. -/
theorem Accepted.worked (hs : Sound s) (hcommand : call.command.rework = some (pid, pos))
    (h : Accepted s call s') : Worked s pid pos call.command s'.spaces := by
  obtain ⟨events, rng, happly⟩ := h
  have hworked : ∀ {x : Py GameState} {message : String} {command : GameCommand},
      Ensures x (fun m => Worked s pid pos command m.spaces) →
      Ensures (do
          illegalIf (s.turn.phase ∉ buildPhases) message
          return (← x, ([] : List GameEvent)))
        fun r => Worked s pid pos command r.1.spaces :=
    fun hx => .guard fun _ => hx.seq fun _ h => h
  have hdispatch : Ensures (dispatch s call.command call.env) fun r =>
      Worked s pid pos call.command r.1.1.spaces := by
    obtain ⟨command, env⟩ := call
    cases command with
    | buildHouse =>
        obtain ⟨rfl, rfl⟩ := Prod.mk.inj (Option.some.inj hcommand)
        exact sat_map.mpr (hworked (buildHouse_worked hs))
    | sellHouse =>
        obtain ⟨rfl, rfl⟩ := Prod.mk.inj (Option.some.inj hcommand)
        exact sat_map.mpr (hworked (sellHouse_worked hs))
    | mortgage =>
        obtain ⟨rfl, rfl⟩ := Prod.mk.inj (Option.some.inj hcommand)
        exact sat_map.mpr (hworked (mortgageProperty_worked hs))
    | unmortgage =>
        obtain ⟨rfl, rfl⟩ := Prod.mk.inj (Option.some.inj hcommand)
        exact sat_map.mpr (hworked (unmortgageProperty_worked hs))
    | _ => cases hcommand
  have hcall : Ensures (apply s call.command call.env) fun r =>
      Worked s pid pos call.command r.1.1.spaces := by
    refine .after fun _ _ => hdispatch.seq fun r hr => ?_
    refine (finishCommand_spaces _ _ _ _ _).seq fun m hm => ?_
    show Worked s pid pos call.command m.spaces
    rw [hm]
    exact hr
  exact hcall.of_ok happly

end Worked

end Monopoly
