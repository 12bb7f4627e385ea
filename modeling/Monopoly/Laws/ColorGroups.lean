import Monopoly.Laws.Ownership
import Monopoly.Spec.Streets

/-!
# Monopoly.Laws.ColorGroups

The streets of a color group: they are built on evenly and by one owner, and
mortgaged only while no street of the group carries a building.  Whether
that owner has the whole group depends on the trades: a trade is checked for
the streets it conveys, not for their groups.
-/

namespace Monopoly

/-! ## the spaces after a call -/

/-- The trade that an accepted command executes conveys the position. -/
def Conveys (s : GameState) (command : GameCommand) (pos : Nat) : Prop :=
  ∃ pid tradeId counter trade, command = .respondTrade pid tradeId .accept counter ∧
    s.trade = some trade ∧
    (pos ∈ trade.proposerOffer.positions ∨ pos ∈ trade.targetRequest.positions)

/-- What a command that is no building command does to the spaces, when no
auction awards the property of another player. -/
inductive Rezoned (s : GameState) (command : GameCommand) : List SpaceOwnership → Prop
  | same : Rezoned s command s.spaces
  | granted {pos : Nat} {pid : PlayerId} : OnBoard s.gameMode pos →
      (∀ owner, (ownershipAt s.spaces pos).ownerId = some owner → owner = pid) →
      Rezoned s command (editSpace pos (grant pid) s.spaces)
  | traded {trade : TradeState} :
      (∀ q, q ∈ trade.proposerOffer.positions ∨ q ∈ trade.targetRequest.positions →
        OnBoard s.gameMode q ∧ Conveys s command q ∧
        buildingLevel (ownershipAt s.spaces q) = 0) →
      Rezoned s command (s.spaces.map (swapSpace trade))
  | inherited {d : PlayerState} {heir : PlayerId} : d ∈ s.seats →
      Rezoned s command (s.spaces.map (onListed d.ownedPositions (grant heir)))
  | cleared {d : PlayerState} : d ∈ s.seats →
      Rezoned s command (s.spaces.map (onListed d.ownedPositions release))

section Rezoned

variable {s m s' : GameState} {env : Env} {command : GameCommand}

theorem Surrendered.rezoned {p : PlayerState} {e : GameState} (hp : p ∈ s.seats)
    (hsurr : Surrendered s p e) (ha : AfterElimination e m) : Rezoned s command m.spaces := by
  rw [ha.frame]
  cases hsurr
  exact .cleared hp

theorem Executed.rezoned {trade : TradeState} {pid : PlayerId} {tradeId : Nat}
    {counter : Option TradeOffer} (htrade : s.trade = some trade) (hexec : Executed s trade m) :
    Rezoned s (.respondTrade pid tradeId .accept counter) m.spaces := by
  cases hexec with
  | mk hoffer hrequest _ =>
      refine .traded fun q hq => ?_
      have htitles : OnBoard s.gameMode q ∧ (ownershipAt s.spaces q).houses = 0 ∧
          (ownershipAt s.spaces q).hasHotel = false := by
        rcases hq with hq | hq
        · obtain ⟨hpos, -, hunbuilt⟩ := hoffer.titles q hq
          exact ⟨hpos, hunbuilt⟩
        · obtain ⟨hpos, -, hunbuilt⟩ := hrequest.titles q hq
          exact ⟨hpos, hunbuilt⟩
      exact ⟨htitles.1, ⟨_, _, _, trade, rfl, htrade, hq⟩, buildingLevel_eq_zero.mpr htitles.2⟩

theorem Dispatched.rezoned (hw : WellFormed s) (hclear : AuctionClear s ⟨command, env⟩)
    (hnot : command.rework = none) (hd : Dispatched s env command m) :
    Rezoned s command m.spaces := by
  cases hd with
  | rolled _ _ _ hr =>
      rw [(hr.rollFrame hw.toSound).frame]
      exact .same
  | bought _ hpending hfree _ _ _ _ =>
      exact .granted (hw.pending _ hpending).onBoard (by simp [hfree])
  | reworked hcommand _ _ => rw [hnot] at hcommand; cases hcommand
  | proposed _ hprop => cases hprop; exact .same
  | responded hresp =>
      cases hresp with
      | rejected _ _ | countered _ _ _ _ => exact .same
      | accepted htrade _ _ hexec => exact hexec.rezoned htrade
  | bid hbid => cases hbid; exact .same
  | bankrupted _ _ hd hl ha =>
      rw [ha.frame]
      cases hl with
      | toCreditor _ _ => exact .inherited hd
      | toBank _ _ => exact .cleared hd
  | surrendered hp _ hsurr ha => exact hsurr.rezoned hp ha
  | auctioned hexpired hauction hr =>
      cases hr with
      | unsold _ _ => exact .same
      | sold hbidder _ =>
          exact .granted (hw.auctions _ hauction).property.onBoard
            fun owner => hclear rfl hexpired _ _ owner hauction hbidder
  | timerSkipped _ _ _ _ _ ht => cases ht <;> exact .same
  | timerForced _ hp _ _ _ hsurr ha => exact hsurr.rezoned (mem_seats hp) ha
  | _ => exact .same

theorem Stepped.rezoned (hw : WellFormed s) (hclear : AuctionClear s ⟨command, env⟩)
    (hnot : command.rework = none) (h : Stepped s env command s') :
    Rezoned s command s'.spaces := by
  cases h with
  | replied _ hd ht =>
      rw [ht.spaces]
      exact hd.rezoned hw hclear hnot
  | played _ hd hsettled ht =>
      have hm := hd.rezoned hw hclear hnot
      rw [ht.spaces]
      cases hsettled <;> exact hm

/-- The same, for the lots: some change hands, or everything a player has is
inherited, or cleared. -/
inductive Shifted (s : GameState) (command : GameCommand) (L : Lots PlayerId Nat) : Prop
  | conveyed (moved : Set Nat) : s.lots.Conveyed L moved → (∀ q ∈ moved, L.owner q ≠ none) →
      (∀ q ∈ moved, s.lots.owner q = none ∨ s.lots.level q = 0 ∧ Conveys s command q) →
      Shifted s command L
  | inherited {k heir : PlayerId} : s.lots.Inherited L k heir → Shifted s command L
  | cleared {k : PlayerId} : s.lots.Cleared L k → Shifted s command L

theorem onListed_position (owned : List Nat) {g : SpaceOwnership → SpaceOwnership}
    (hg : ∀ o, (g o).position = o.position) (o : SpaceOwnership) :
    (onListed owned g o).position = o.position := by
  unfold onListed
  split <;> simp [hg]

/-- The records after an edit of what the player `d` lists: what they own. -/
theorem ownershipAt_onListed (hs : Sound s) (hb : Books s) {d : PlayerState} (hd : d ∈ s.seats)
    {g : SpaceOwnership → SpaceOwnership} (hg : ∀ o, (g o).position = o.position) (q : Nat) :
    ownershipAt (s.spaces.map (onListed d.ownedPositions g)) q =
      if s.lots.owner q = some d.id then g (ownershipAt s.spaces q)
      else ownershipAt s.spaces q := by
  have hlists : q ∈ d.ownedPositions ↔ s.lots.owner q = some d.id :=
    (books_iff hs.ids).mp hb.agrees d hd q
  rw [ownershipAt_edited hs.layout (onListed_position _ hg)]
  by_cases hq : OnBoard s.gameMode q
  · rw [if_pos hq, onListed, (ownershipAt_mem hs.layout hq).2]
    simp only [hlists]
  · have hnone : s.lots.owner q = none := by
      show (ownershipAt s.spaces q).ownerId = none
      rw [ownershipAt_off hs.layout hq]
    rw [if_neg hq, hnone, if_neg (by simp)]

theorem swapSpace_kept (trade : TradeState) (o : SpaceOwnership) :
    buildingLevel (swapSpace trade o) = buildingLevel o ∧
      (swapSpace trade o).isMortgaged = o.isMortgaged := by
  unfold swapSpace
  split <;> (try split) <;> exact ⟨rfl, rfl⟩

theorem grant_kept (owner : PlayerId) (o : SpaceOwnership) :
    buildingLevel (grant owner o) = buildingLevel o ∧
      (grant owner o).isMortgaged = o.isMortgaged :=
  ⟨rfl, rfl⟩

/-- An edit of the owners leaves the buildings and the mortgages alone. -/
theorem lots_reowned {c : Nat → Prop} [DecidablePred c] {g : SpaceOwnership → SpaceOwnership}
    (hat : ∀ q, ownershipAt m.spaces q =
      if c q then g (ownershipAt s.spaces q) else ownershipAt s.spaces q)
    (hg : ∀ o, buildingLevel (g o) = buildingLevel o ∧ (g o).isMortgaged = o.isMortgaged) :
    m.lots.level = s.lots.level ∧ m.lots.pledged = s.lots.pledged := by
  constructor
  · funext q
    show buildingLevel (ownershipAt m.spaces q) = _
    rw [hat]
    split
    · exact (hg _).1
    · rfl
  · funext q
    show ((ownershipAt m.spaces q).isMortgaged = true) = _
    rw [hat]
    split
    · rw [(hg _).2]
      rfl
    · rfl

theorem shifted_of_grant (hs : Sound s) {pos : Nat} {pid : PlayerId}
    (hpos : OnBoard s.gameMode pos)
    (howner : ∀ owner, (ownershipAt s.spaces pos).ownerId = some owner → owner = pid)
    (hspaces : m.spaces = editSpace pos (grant pid) s.spaces) : Shifted s command m.lots := by
  have hat : ∀ q, ownershipAt m.spaces q =
      if q = pos then grant pid (ownershipAt s.spaces q) else ownershipAt s.spaces q := by
    intro q
    rw [hspaces, ownershipAt_editSpace hs.layout hpos (f := grant pid) (fun _ => rfl)]
    split
    · rename_i hq
      rw [hq]
    · rfl
  obtain ⟨hlevel, hpledged⟩ := lots_reowned hat (grant_kept pid)
  cases hold : s.lots.owner pos with
  | none =>
      refine .conveyed {pos} ⟨hlevel, hpledged, fun q hq => ?_⟩ ?_ ?_
      · simp [GameState.lots, hat, show q ≠ pos from hq]
      · rintro q rfl
        simp [GameState.lots, hat, grant]
      · rintro q rfl
        exact .inl hold
  | some owner =>
      refine .conveyed ∅ ⟨hlevel, hpledged, fun q _ => ?_⟩ (by simp) (by simp)
      by_cases hq : q = pos
      · subst hq
        rw [hold, howner owner hold]
        simp [GameState.lots, hat, grant]
      · simp [GameState.lots, hat, hq]

theorem shifted_of_trade (hs : Sound s) {trade : TradeState}
    (htraded : ∀ q, q ∈ trade.proposerOffer.positions ∨ q ∈ trade.targetRequest.positions →
      OnBoard s.gameMode q ∧ Conveys s command q ∧ buildingLevel (ownershipAt s.spaces q) = 0)
    (hspaces : m.spaces = s.spaces.map (swapSpace trade)) : Shifted s command m.lots := by
  have hat : ∀ q, ownershipAt m.spaces q =
      if OnBoard s.gameMode q then swapSpace trade (ownershipAt s.spaces q)
      else ownershipAt s.spaces q :=
    fun q => hspaces ▸ ownershipAt_edited hs.layout (swapSpace_position trade) q
  obtain ⟨hlevel, hpledged⟩ := lots_reowned hat (swapSpace_kept trade)
  refine .conveyed {q | q ∈ trade.proposerOffer.positions ∨ q ∈ trade.targetRequest.positions}
    ⟨hlevel, hpledged, fun q hq => ?_⟩ (fun q hq => ?_)
    fun q hq => .inr ⟨(htraded q hq).2.2, (htraded q hq).2.1⟩
  · obtain ⟨hoff, hreq⟩ := not_or.mp hq
    simp only [GameState.lots, hat]
    split
    · rename_i hpos
      rw [ownerId_swapSpace, (ownershipAt_mem hs.layout hpos).2, if_neg hreq, if_neg hoff]
    · rfl
  · have hpos := (htraded q hq).1
    simp only [GameState.lots, hat, if_pos hpos]
    rw [ownerId_swapSpace, (ownershipAt_mem hs.layout hpos).2]
    rcases hq with hq | hq
    · split <;> simp
    · simp [hq]

theorem shifted_of_inherit (hs : Sound s) (hb : Books s) {d : PlayerState} {heir : PlayerId}
    (hd : d ∈ s.seats)
    (hspaces : m.spaces = s.spaces.map (onListed d.ownedPositions (grant heir))) :
    Shifted s command m.lots := by
  have hat : ∀ q, ownershipAt m.spaces q = if s.lots.owner q = some d.id then
      grant heir (ownershipAt s.spaces q) else ownershipAt s.spaces q :=
    fun q => hspaces ▸ ownershipAt_onListed hs hb hd (g := grant heir) (fun _ => rfl) q
  obtain ⟨hlevel, hpledged⟩ := lots_reowned hat (grant_kept heir)
  have hinherited : s.lots.Inherited m.lots d.id heir := by
    refine ⟨hlevel, hpledged, fun q hq => ?_, fun q hq => ?_⟩
    · show (ownershipAt m.spaces q).ownerId = _
      rw [hat, if_pos hq]
      rfl
    · show (ownershipAt m.spaces q).ownerId = _
      rw [hat, if_neg hq]
      rfl
  exact .inherited hinherited

theorem shifted_of_clear (hs : Sound s) (hb : Books s) {d : PlayerState} (hd : d ∈ s.seats)
    (hspaces : m.spaces = s.spaces.map (onListed d.ownedPositions release)) :
    Shifted s command m.lots := by
  have hat : ∀ q, ownershipAt m.spaces q = if s.lots.owner q = some d.id then
      release (ownershipAt s.spaces q) else ownershipAt s.spaces q :=
    fun q => hspaces ▸ ownershipAt_onListed hs hb hd (g := release) (fun _ => rfl) q
  refine .cleared (k := d.id) ⟨fun q hq => ?_, fun q hq => ?_, fun q hq => ?_, fun q hq => ?_⟩
  · simp only [GameState.lots] at hq
    simp [GameState.lots, hat, hq, release, buildingLevel]
  · show (ownershipAt m.spaces q).ownerId = _
    rw [hat, if_neg hq]
    rfl
  · show buildingLevel (ownershipAt m.spaces q) = _
    rw [hat, if_neg hq]
    rfl
  · show (ownershipAt m.spaces q).isMortgaged = true ↔ _
    rw [hat, if_neg hq]
    rfl

theorem Rezoned.shifted (hs : Sound s) (hb : Books s) (h : Rezoned s command m.spaces) :
    Shifted s command m.lots := by
  generalize hspaces : m.spaces = spaces at h
  cases h with
  | same =>
      refine .conveyed ∅ ⟨?_, ?_, fun q _ => ?_⟩ (by simp) (by simp) <;>
        simp [GameState.lots, hspaces]
  | granted hpos howner => exact shifted_of_grant hs hpos howner hspaces
  | traded htraded => exact shifted_of_trade hs htraded hspaces
  | inherited hd => exact shifted_of_inherit hs hb hd hspaces
  | cleared hd => exact shifted_of_clear hs hb hd hspaces

end Rezoned

section Worked

variable {s m : GameState} {pid : PlayerId} {pos : Nat} {command : GameCommand}
  {color : PropertyColor}

/-- A space is in one group. -/
theorem streets_inj {mode : GameMode} {color color' : PropertyColor} (h : pos ∈ streets mode color)
    (h' : pos ∈ streets mode color') : color = color' :=
  Option.some.inj ((colorGroup_of_mem h).2.symm.trans (colorGroup_of_mem h').2)

theorem onBoard_streets (h : pos ∈ streets s.gameMode color) : OnBoard s.gameMode pos :=
  onBoard_colorGroup _ color pos h

/-- The lots after the record of one space was edited. -/
theorem lots_editSpace (hs : Sound s) (hpos : OnBoard s.gameMode pos)
    {f : SpaceOwnership → SpaceOwnership} (hspaces : m.spaces = editSpace pos f s.spaces)
    (hf : ∀ o, (f o).position = o.position) (howner : ∀ o, (f o).ownerId = o.ownerId) :
    m.lots.owner = s.lots.owner ∧
      (∀ q ≠ pos, m.lots.level q = s.lots.level q ∧ m.lots.pledged q = s.lots.pledged q) ∧
      m.lots.level pos = buildingLevel (f (ownershipAt s.spaces pos)) ∧
      (m.lots.pledged pos ↔ (f (ownershipAt s.spaces pos)).isMortgaged = true) := by
  have hat : ∀ q, ownershipAt m.spaces q =
      if q = pos then f (ownershipAt s.spaces pos) else ownershipAt s.spaces q :=
    fun q => hspaces ▸ ownershipAt_editSpace hs.layout hpos hf q
  refine ⟨funext fun q => ?_, fun q hq => ?_, ?_, ?_⟩
  · show (ownershipAt m.spaces q).ownerId = (ownershipAt s.spaces q).ownerId
    rw [hat]
    split
    · rename_i hq; rw [howner, hq]
    · rfl
  · simp [GameState.lots, hat, hq]
  · simp [GameState.lots, hat]
  · simp [GameState.lots, hat]

/-- A pledge, or its end, leaves the level of every lot. -/
theorem level_editSpace (hs : Sound s) (hpos : OnBoard s.gameMode pos)
    {f : SpaceOwnership → SpaceOwnership} (hspaces : m.spaces = editSpace pos f s.spaces)
    (hf : ∀ o, (f o).position = o.position) (howner : ∀ o, (f o).ownerId = o.ownerId)
    (hkept : ∀ o, buildingLevel (f o) = buildingLevel o) : m.lots.level = s.lots.level := by
  obtain ⟨-, hothers, hlevel, -⟩ := lots_editSpace hs hpos hspaces hf howner
  funext q
  by_cases hqp : q = pos
  · subst hqp
    exact hlevel.trans (hkept _)
  · exact (hothers q hqp).1

/-- The level of the one space changes, by one. -/
theorem lots_developed (hs : Sound s) {f : SpaceOwnership → SpaceOwnership}
    (hpos : OnBoard s.gameMode pos) (hf : ∀ o, (f o).position = o.position ∧
      (f o).ownerId = o.ownerId ∧ (f o).isMortgaged = o.isMortgaged)
    (hspaces : m.spaces = editSpace pos f s.spaces) : s.lots.Developed m.lots pos ∧
      m.lots.level pos = buildingLevel (f (ownershipAt s.spaces pos)) := by
  obtain ⟨howner, hothers, hlevel, hpledged⟩ :=
    lots_editSpace hs hpos hspaces (fun o => (hf o).1) fun o => (hf o).2.1
  refine ⟨⟨howner, funext fun q => ?_, fun q hq => (hothers q hq).1⟩, hlevel⟩
  by_cases hq : q = pos
  · subst hq
    exact propext (hpledged.trans (by rw [(hf _).2.2]; rfl))
  · exact (hothers q hq).2

/-- A building command keeps the rule of every group. -/
theorem Worked.regular (hs : Sound s) (h : Worked s pid pos command m.spaces)
    (hr : s.lots.Regular (streets s.gameMode color)) :
    m.lots.Regular (streets s.gameMode color) := by
  generalize hspaces : m.spaces = spaces at h
  cases h with
  | @raised color' hmem hhotel howner hleast =>
      obtain ⟨hd, hlevel⟩ := lots_developed hs (onBoard_streets hmem) addHouse_kept hspaces
      rw [buildingLevel_addHouse hhotel] at hlevel
      refine hr.raise hd hlevel (k := pid) (fun hi => ?_) fun hi => ?_
      · obtain rfl := streets_inj hmem hi
        exact hleast
      · obtain rfl := streets_inj hmem hi
        exact fun q hq => ⟨(howner q hq).1, by simp [GameState.lots, (howner q hq).2]⟩
  | @lowered color' hmem hbuilt hmost =>
      obtain ⟨hd, hlevel⟩ := lots_developed hs (onBoard_streets hmem) removeHouse_kept hspaces
      refine hr.lower hd (by rw [hlevel]; exact buildingLevel_removeHouse hbuilt) fun hi => ?_
      obtain rfl := streets_inj hmem hi
      exact hmost
  | mortgaged hpos howner hgroup =>
      obtain ⟨howners, hothers, -⟩ :=
        lots_editSpace hs hpos hspaces (fun _ => rfl) fun _ => rfl
      have hlevel := level_editSpace hs hpos hspaces (fun _ => rfl) (fun _ => rfl) fun _ => rfl
      refine hr.repledge howners hlevel fun q hq hpledged => ?_
      by_cases hqp : q = pos
      · subst hqp
        exact .inr ⟨by simp [GameState.lots, howner], hgroup color hq⟩
      · exact .inl ((hothers q hqp).2 ▸ hpledged)
  | redeemed hpos =>
      obtain ⟨howners, hothers, -, hat⟩ :=
        lots_editSpace hs hpos hspaces (fun _ => rfl) fun _ => rfl
      have hlevel := level_editSpace hs hpos hspaces (fun _ => rfl) (fun _ => rfl) fun _ => rfl
      refine hr.repledge howners hlevel fun q hq hpledged => ?_
      by_cases hqp : q = pos
      · subst hqp
        simpa using hat.mp hpledged
      · exact .inl ((hothers q hqp).2 ▸ hpledged)

/-- It keeps the groups whole, too. -/
theorem Worked.whole (hs : Sound s) (h : Worked s pid pos command m.spaces)
    (hw : s.lots.Whole (streets s.gameMode color)) : m.lots.Whole (streets s.gameMode color) := by
  generalize hspaces : m.spaces = spaces at h
  cases h with
  | @raised color' hmem hhotel howner hleast =>
      obtain ⟨hd, -⟩ := lots_developed hs (onBoard_streets hmem) addHouse_kept hspaces
      refine hw.raise hd (k := pid) fun hi => ?_
      obtain rfl := streets_inj hmem hi
      exact fun q hq => (howner q hq).1
  | @lowered color' hmem hbuilt hmost =>
      obtain ⟨hd, -⟩ := lots_developed hs (onBoard_streets hmem) removeHouse_kept hspaces
      exact hw.lower hd hbuilt
  | mortgaged hpos _ _ | redeemed hpos =>
      obtain ⟨howners, -⟩ := lots_editSpace hs hpos hspaces (fun _ => rfl) fun _ => rfl
      exact hw.repledge howners
        (level_editSpace hs hpos hspaces (fun _ => rfl) (fun _ => rfl) fun _ => rfl)

end Worked

section Shifted

variable {s m : GameState} {command : GameCommand} {color : PropertyColor}

theorem Shifted.regular (h : Shifted s command m.lots)
    (hr : s.lots.Regular (streets s.gameMode color)) :
    m.lots.Regular (streets s.gameMode color) := by
  cases h with
  | conveyed moved hc hsome hfrom =>
      refine hr.convey hc (fun q hq hmoved => ?_) hsome
      rcases hfrom q hmoved with hnone | ⟨hzero, -⟩
      · exact (hr.vacant q hq hnone).1
      · exact hzero
  | inherited hi => exact hr.inherit hi
  | cleared hc => exact hr.clear hc

/-- No street of a group that carries a building is conveyed by a trade. -/
def KeepsGroups (s : GameState) (call : Call) : Prop :=
  ∀ color, ∀ q ∈ streets s.gameMode color, 0 < s.lots.level q →
    ∀ r ∈ streets s.gameMode color, ¬ Conveys s call.command r

theorem Shifted.whole {env : Env} (h : Shifted s command m.lots)
    (hkeeps : KeepsGroups s ⟨command, env⟩) (hw : s.lots.Whole (streets s.gameMode color)) :
    m.lots.Whole (streets s.gameMode color) := by
  cases h with
  | conveyed moved hc hsome hfrom =>
      refine hw.convey hc fun q hq hlevel r hr hmoved => ?_
      rcases hfrom r hmoved with hnone | ⟨-, hconveys⟩
      · obtain ⟨k, hk⟩ := hw q hq hlevel
        rw [hk r hr] at hnone
        cases hnone
      · exact hkeeps color q hq hlevel r hr hconveys
  | inherited hi => exact hw.inherit hi
  | cleared hc => exact hw.clear hc

end Shifted

/-! ## houses -/

/-- Four houses at most, and none beside a hotel. -/
def Bounded (o : SpaceOwnership) : Prop := o.houses ≤ 4 ∧ (o.hasHotel = true → o.houses = 0)

section Bounded

variable {s : GameState} {spaces : List SpaceOwnership} {command : GameCommand}

theorem bounded_map {f : SpaceOwnership → SpaceOwnership} (h : ∀ o ∈ spaces, Bounded o)
    (hf : ∀ o ∈ spaces, Bounded o → Bounded (f o)) : ∀ o ∈ spaces.map f, Bounded o := by
  intro o ho
  obtain ⟨o', ho', rfl⟩ := List.mem_map.mp ho
  exact hf o' ho' (h o' ho')

theorem bounded_editSpace {f : SpaceOwnership → SpaceOwnership} {pos : Nat}
    (h : ∀ o ∈ spaces, Bounded o)
    (hf : ∀ o ∈ spaces, o.position = pos → Bounded o → Bounded (f o)) :
    ∀ o ∈ editSpace pos f spaces, Bounded o := by
  refine bounded_map h fun o ho hb => ?_
  split
  · rename_i hpos; exact hf o ho hpos hb
  · exact hb

theorem Rezoned.bounded (hr : Rezoned s command spaces) (h : ∀ o ∈ s.spaces, Bounded o) :
    ∀ o ∈ spaces, Bounded o := by
  have hnone : ∀ o, Bounded (release o) := fun _ => ⟨Nat.zero_le _, fun _ => rfl⟩
  cases hr with
  | same => exact h
  | granted _ _ => exact bounded_editSpace h fun _ _ _ hb => hb
  | traded _ =>
      refine bounded_map h fun o _ hb => ?_
      unfold swapSpace
      split <;> (try split) <;> exact hb
  | inherited _ =>
      refine bounded_map h fun o _ hb => ?_
      unfold onListed
      split <;> exact hb
  | cleared _ =>
      refine bounded_map h fun o _ hb => ?_
      unfold onListed
      split
      · exact hnone o
      · exact hb

theorem Worked.bounded (hs : Sound s) {pid : PlayerId} {pos : Nat}
    (hw : Worked s pid pos command spaces) (h : ∀ o ∈ s.spaces, Bounded o) :
    ∀ o ∈ spaces, Bounded o := by
  cases hw with
  | raised _ hhotel _ _ =>
      refine bounded_editSpace h fun o ho hpos hb => ?_
      rw [← hpos, ownershipAt_of_mem hs.layout ho] at hhotel
      obtain ⟨hfour, -⟩ := hb
      unfold addHouse
      split
      · exact ⟨Nat.zero_le _, fun _ => rfl⟩
      · exact ⟨by simp only; omega, by simp [hhotel]⟩
  | lowered _ _ _ =>
      refine bounded_editSpace h fun o _ _ hb => ?_
      unfold removeHouse
      split
      · exact ⟨Nat.le_refl _, by simp⟩
      · rename_i hnone
        exact ⟨Nat.le_trans (Nat.sub_le _ _) hb.1, fun hhotel => absurd hhotel hnone⟩
  | mortgaged _ _ _ | redeemed _ => exact bounded_editSpace h fun _ _ _ hb => hb

end Bounded

/-! ## games -/

/-- The records of the streets of a color group. -/
def GameState.group (s : GameState) (color : PropertyColor) : List SpaceOwnership :=
  s.spaces.filter fun o => decide (o.position ∈ positionsInColorGroup color s.gameMode)

/-- The rule of a color group: at most four houses on a street, and none
beside a hotel; levels that differ by one at most; no mortgage beside a
building; one owner of all that is built on; nothing on an unowned street. -/
structure GroupRule (group : List SpaceOwnership) : Prop where
  bounded : ∀ o ∈ group, o.houses ≤ 4 ∧ (o.hasHotel = true → o.houses = 0)
  even : ∀ o ∈ group, ∀ o' ∈ group, buildingLevel o ≤ buildingLevel o' + 1
  gated : (∃ o ∈ group, 0 < buildingLevel o) → ∀ o ∈ group, o.isMortgaged = false
  sole : ∀ o ∈ group, ∀ o' ∈ group, 0 < buildingLevel o → 0 < buildingLevel o' →
    o.ownerId = o'.ownerId
  vacant : ∀ o ∈ group, o.ownerId = none → buildingLevel o = 0 ∧ o.isMortgaged = false

/-- Buildings stand on complete groups: whoever owns one of the streets owns
them all. -/
def GroupsComplete (s : GameState) : Prop :=
  ∀ color, (∃ o ∈ s.group color, 0 < buildingLevel o) →
    ∃ pid, ∀ o ∈ s.group color, o.ownerId = some pid

section Games

variable {s s' : GameState} {color : PropertyColor}

theorem mem_group (hs : Sound s) {o : SpaceOwnership} : o ∈ s.group color ↔
    ∃ q ∈ streets s.gameMode color, o = ownershipAt s.spaces q := by
  simp only [GameState.group, List.mem_filter, decide_eq_true_eq]
  constructor
  · rintro ⟨ho, hmem⟩
    exact ⟨o.position, hmem, (ownershipAt_of_mem hs.layout ho).symm⟩
  · rintro ⟨q, hq, rfl⟩
    obtain ⟨hmem, hpos⟩ := ownershipAt_mem hs.layout (onBoard_streets hq)
    exact ⟨hmem, hpos.symm ▸ hq⟩

theorem groupRule_of_regular (hs : Sound s) (hb : ∀ o ∈ s.spaces, Bounded o)
    (hr : s.lots.Regular (streets s.gameMode color)) : GroupRule (s.group color) := by
  constructor
  · exact fun o ho => hb o (List.mem_filter.mp ho).1
  · intro o ho o' ho'
    obtain ⟨q, hq, rfl⟩ := (mem_group hs).mp ho
    obtain ⟨q', hq', rfl⟩ := (mem_group hs).mp ho'
    exact hr.even q hq q' hq'
  · rintro ⟨o, ho, hlevel⟩ o' ho'
    obtain ⟨q, hq, rfl⟩ := (mem_group hs).mp ho
    obtain ⟨q', hq', rfl⟩ := (mem_group hs).mp ho'
    exact Bool.eq_false_iff.mpr (hr.gated q hq q' hq' hlevel)
  · intro o ho o' ho'
    obtain ⟨q, hq, rfl⟩ := (mem_group hs).mp ho
    obtain ⟨q', hq', rfl⟩ := (mem_group hs).mp ho'
    exact hr.sole q hq q' hq'
  · intro o ho hnone
    obtain ⟨q, hq, rfl⟩ := (mem_group hs).mp ho
    obtain ⟨hzero, hfree⟩ := hr.vacant q hq hnone
    exact ⟨hzero, Bool.eq_false_iff.mpr hfree⟩

theorem groupsComplete_iff (hs : Sound s) :
    GroupsComplete s ↔ ∀ color, s.lots.Whole (streets s.gameMode color) := by
  refine forall_congr' fun color => ?_
  constructor
  · intro h q hq hlevel
    obtain ⟨pid, hpid⟩ := h ⟨_, (mem_group hs).mpr ⟨q, hq, rfl⟩, hlevel⟩
    exact ⟨pid, fun r hr => hpid _ ((mem_group hs).mpr ⟨r, hr, rfl⟩)⟩
  · rintro h ⟨o, ho, hlevel⟩
    obtain ⟨q, hq, rfl⟩ := (mem_group hs).mp ho
    obtain ⟨pid, hpid⟩ := h q hq hlevel
    refine ⟨pid, fun o ho => ?_⟩
    obtain ⟨r, hr, rfl⟩ := (mem_group hs).mp ho
    exact hpid r hr

/-- A new board is empty. -/
theorem Opens.empty {args : NewGame} (h : Opens args s) :
    ∀ o ∈ s.spaces, o = { position := o.position } := by
  obtain ⟨-, uuid4, -, rng, hnew⟩ := h
  have hempty : Ensures (newGame uuid4 args) fun r =>
      ∀ o ∈ r.1.spaces, o = { position := o.position } := by
    refine .after fun _ _ => fun o ho => ?_
    obtain ⟨space, -, rfl⟩ := List.mem_map.mp ho
    rfl
  exact hempty.of_ok hnew

/-- What the calls keep: the books, and the rule of every group. -/
structure GroupsRegular (s : GameState) : Prop where
  books : Books s
  bounded : ∀ o ∈ s.spaces, Bounded o
  regular : ∀ color, s.lots.Regular (streets s.gameMode color)

/-- Nothing stands on the board of a new game, and nothing is mortgaged. -/
theorem Opens.bare {args : NewGame} (h : Opens args s) (q : Nat) :
    ownershipAt s.spaces q = { position := q } := by
  have hlayout := h.fresh.layout
  by_cases hq : OnBoard s.gameMode q
  · obtain ⟨hmem, hpos⟩ := ownershipAt_mem hlayout hq
    rw [h.empty _ hmem, hpos]
  · exact ownershipAt_off hlayout hq

theorem Opens.groupsRegular {args : NewGame} (h : Opens args s) : GroupsRegular s := by
  have hlevel : ∀ q, s.lots.level q = 0 := fun q => by simp [GameState.lots, h.bare, buildingLevel]
  refine ⟨h.books, fun o ho => ?_, fun color => ⟨?_, ?_, ?_, ?_⟩⟩
  · rw [h.empty o ho]
    exact ⟨Nat.zero_le _, fun _ => rfl⟩
  · intro q _ r _
    simp [hlevel]
  · intro q _ r _ hpos
    simp [hlevel] at hpos
  · intro q _ r _ hpos
    simp [hlevel] at hpos
  · intro q _ _
    exact ⟨hlevel q, by simp [GameState.lots, h.bare]⟩

theorem Opens.groupsComplete {args : NewGame} (h : Opens args s) : GroupsComplete s := by
  rw [groupsComplete_iff h.fresh.wellFormed.toSound]
  intro color q _ hlevel
  simp [GameState.lots, h.bare, buildingLevel] at hlevel

variable {call : Call}

/-- A call either is a building command that passed its checks, or rezones
the board. -/
theorem Accepted.shifted (hw : WellFormed s) (hl : Live s) (hb : Books s)
    (hclear : AuctionClear s call) (h : Accepted s call s') :
    (∃ pid pos, Worked s pid pos call.command s'.spaces) ∨
      Rezoned s call.command s'.spaces ∧ Shifted s call.command s'.lots := by
  cases hcommand : call.command.rework with
  | some target => exact .inl ⟨target.1, target.2, h.worked hw.toSound hcommand⟩
  | none =>
      have hrezoned := (h.stepped hw hl).2.rezoned hw hclear hcommand
      exact .inr ⟨hrezoned, hrezoned.shifted hw.toSound hb⟩

theorem GroupsRegular.step (hw : WellFormed s) (hl : Live s) (ho : GroupsRegular s)
    (hclear : AuctionClear s call) (h : Accepted s call s') : GroupsRegular s' := by
  have hs := hw.toSound
  obtain ⟨-, hstep⟩ := h.stepped hw hl
  have hbooks := (hstep.books_iff hw ho.books).mpr hclear
  have hmode := hstep.gameMode hs
  rcases h.shifted hw hl ho.books hclear with ⟨pid, pos, hworked⟩ | ⟨hrezoned, hshifted⟩
  · refine ⟨hbooks, hworked.bounded hs ho.bounded, fun color => ?_⟩
    rw [hmode]
    exact hworked.regular hs (ho.regular color)
  · refine ⟨hbooks, hrezoned.bounded ho.bounded, fun color => ?_⟩
    rw [hmode]
    exact hshifted.regular (ho.regular color)

/-- An accepted trade is affordable to both parties and swaps the spaces. -/
theorem Stepped.executed {env : Env} {pid : PlayerId} {tradeId : Nat} {counter : Option TradeOffer}
    {trade : TradeState} (htrade : s.trade = some trade)
    (h : Stepped s env (.respondTrade pid tradeId .accept counter) s') :
    Affordable s trade.proposerId trade.proposerOffer ∧
      Affordable s trade.targetId trade.targetRequest ∧
      s'.spaces = s.spaces.map (swapSpace trade) := by
  cases h with
  | replied _ hd ht =>
      rw [ht.spaces]
      cases hd with
      | reworked hcommand _ _ => cases hcommand
      | responded hresp =>
          cases hresp with
          | accepted htrade' _ _ hexec =>
              obtain rfl := Option.some.inj (htrade.symm.trans htrade')
              cases hexec with
              | mk hoffer hrequest _ => exact ⟨hoffer, hrequest, rfl⟩
  | played hreply _ _ _ => cases hreply

/-- An accepted trade leaves the levels as they are, and changes the owners of
what it conveys, on which nothing stands. -/
theorem Accepted.traded (hw : WellFormed s) (hl : Live s) (h : Accepted s call s') {r : Nat}
    (hr : Conveys s call.command r) : (∀ q, s'.lots.level q = s.lots.level q) ∧
      (∀ q, ¬ Conveys s call.command q → s'.lots.owner q = s.lots.owner q) ∧
      ∀ q, Conveys s call.command q →
        s.lots.level q = 0 ∧ s'.lots.owner q ≠ s.lots.owner q := by
  obtain ⟨pid, tradeId, counter, trade, hcommand, htrade, -⟩ := hr
  have hstep := (h.stepped hw hl).2
  rw [hcommand] at hstep ⊢
  obtain ⟨hoffer, hrequest, hspaces⟩ := hstep.executed htrade
  have hdistinct := (hw.trades trade htrade).distinct
  have hat : ∀ q, ownershipAt s'.spaces q = if OnBoard s.gameMode q
      then swapSpace trade (ownershipAt s.spaces q) else ownershipAt s.spaces q :=
    fun q => hspaces ▸ ownershipAt_edited hw.layout (swapSpace_position trade) q
  have howner : ∀ q, OnBoard s.gameMode q → s'.lots.owner q =
      if q ∈ trade.targetRequest.positions then some trade.proposerId
      else if q ∈ trade.proposerOffer.positions then some trade.targetId
      else s.lots.owner q := by
    intro q hpos
    show (ownershipAt s'.spaces q).ownerId = _
    rw [hat, if_pos hpos, ownerId_swapSpace, (ownershipAt_mem hw.layout hpos).2]
    rfl
  refine ⟨fun q => ?_, fun q hnot => ?_, fun q hq => ?_⟩
  · show buildingLevel (ownershipAt s'.spaces q) = _
    rw [hat]
    split
    · exact (swapSpace_kept trade _).1
    · rfl
  · have hreq : q ∉ trade.targetRequest.positions := fun hreq =>
      hnot ⟨_, _, _, trade, rfl, htrade, .inr hreq⟩
    have hoff : q ∉ trade.proposerOffer.positions := fun hoff =>
      hnot ⟨_, _, _, trade, rfl, htrade, .inl hoff⟩
    by_cases hpos : OnBoard s.gameMode q
    · rw [howner q hpos, if_neg hreq, if_neg hoff]
    · show (ownershipAt s'.spaces q).ownerId = _
      rw [hat, if_neg hpos]
      rfl
  · obtain ⟨-, -, -, trade', -, htrade', hoffered⟩ := hq
    obtain rfl := Option.some.inj (htrade.symm.trans htrade')
    by_cases hreq : q ∈ trade.targetRequest.positions
    · obtain ⟨hpos, hold, hunbuilt⟩ := hrequest.titles q hreq
      refine ⟨buildingLevel_eq_zero.mpr hunbuilt, ?_⟩
      rw [howner q hpos, if_pos hreq, show s.lots.owner q = some trade.targetId from hold]
      exact fun heq => hdistinct (Option.some.inj heq)
    · have hoff := hoffered.resolve_right hreq
      obtain ⟨hpos, hold, hunbuilt⟩ := hoffer.titles q hoff
      refine ⟨buildingLevel_eq_zero.mpr hunbuilt, ?_⟩
      rw [howner q hpos, if_neg hreq, if_pos hoff,
        show s.lots.owner q = some trade.proposerId from hold]
      exact fun heq => hdistinct (Option.some.inj heq).symm

/-- A call leaves buildings on complete groups exactly when it conveys no
street of a group that carries one: the building would stay behind. -/
theorem Accepted.groupsComplete_iff (hw : WellFormed s) (hl : Live s) (ho : GroupsRegular s)
    (hclear : AuctionClear s call) (hcomplete : GroupsComplete s) (h : Accepted s call s') :
    GroupsComplete s' ↔ KeepsGroups s call := by
  have hs := hw.toSound
  obtain ⟨-, hstep⟩ := h.stepped hw hl
  rw [Monopoly.groupsComplete_iff (hstep.wellFormed hw).toSound, hstep.gameMode hs]
  have hwhole := (Monopoly.groupsComplete_iff hs).mp hcomplete
  constructor
  · intro hafter color q hq hlevel r hr hconveys
    obtain ⟨hlevels, hkept, hmoved⟩ := h.traded hw hl hconveys
    have hstays : ¬ Conveys s call.command q := fun hq => by
      have := (hmoved q hq).1
      omega
    obtain ⟨k, hk⟩ := hwhole color q hq hlevel
    obtain ⟨k', hk'⟩ := hafter color q hq (by rw [hlevels]; exact hlevel)
    have hsame : k' = k :=
      Option.some.inj ((hk' q hq).symm.trans ((hkept q hstays).trans (hk q hq)))
    exact (hmoved r hconveys).2 (by rw [hk' r hr, hk r hr, hsame])
  · intro hkeeps color
    rcases h.shifted hw hl ho.books hclear with ⟨pid, pos, hworked⟩ | ⟨-, hshifted⟩
    · exact hworked.whole hs (hwhole color)
    · exact hshifted.whole hkeeps (hwhole color)

variable {h : List (Taken GameState Call)}

theorem Play.groupsRegular (hplay : Play h s) (hclear : ∀ t ∈ h, AuctionClear t.before t.label) :
    GroupsRegular s := by
  refine Run.invariant_of (A := AuctionClear) ?_ ?_ hplay hclear
  · rintro s ⟨args, hopens⟩
    exact hopens.groupsRegular
  · intro h s call s' hplay hregular hclear haccepted
    obtain ⟨hw, hl⟩ := Play.formed hplay
    exact hregular.step hw hl hclear haccepted

/-- **Color groups.** The rule holds of every group in every state of a game
in which no auction awards the property of another player. -/
theorem group_rule_kept (hplay : Play h s) (hclear : ∀ t ∈ h, AuctionClear t.before t.label)
    (color : PropertyColor) : GroupRule (s.group color) := by
  have hregular := hplay.groupsRegular hclear
  exact groupRule_of_regular (Play.formed hplay).1.toSound hregular.bounded (hregular.regular color)

/-- Player `1` buys both brown streets of the duel board and builds a house on
the first. -/
def brownHouse : List Call :=
  [callAt 0 [0] (.rollDice 1),
    callAt 0 [] (.buyProperty 1 2),
    callAt 0 [] (.endTurn 1),
    callAt 0 [5] (.rollDice 2),
    callAt 0 [] (.endTurn 2),
    callAt 0 [1] (.rollDice 1),
    callAt 0 [] (.buyProperty 1 4),
    callAt 0 [] (.buildHouse 1 2)]

theorem auctionClear_of_other {s : GameState} {call : Call}
    (h : call.command ≠ .advanceAuction) : AuctionClear s call :=
  fun hadvance => absurd hadvance h

theorem group_rule_with_house : ∃ h s, Play h s ∧ h.reverse.map (·.label) = brownHouse ∧
    (s.group .brown).map (·.houses) = [1, 0] ∧ ∀ color, GroupRule (s.group color) := by
  obtain ⟨h, s, hplay, hlabels, hcheck⟩ := play_of_reaches duel brownHouse
    (fun _ s => decide ((s.group .brown).map (·.houses) = [1, 0])) (by decide) (by decide +kernel)
  refine ⟨h, s, hplay, hlabels, of_decide_eq_true hcheck, group_rule_kept hplay fun t ht => ?_⟩
  have hcalls : ∀ call ∈ brownHouse, call.command ≠ .advanceAuction := by decide
  exact auctionClear_of_other (hcalls _ (label_mem_of_reverse hlabels ht))

/-- **Monopolies.** In a game in which no auction awards the property of
another player, buildings stand on complete groups in every state exactly
when no trade conveys a street of a group that carries a building. -/
theorem monopolies_kept_iff (hplay : Play h s) (hclear : ∀ t ∈ h, AuctionClear t.before t.label) :
    (GroupsComplete s ∧ ∀ t ∈ h, GroupsComplete t.before) ↔
      ∀ t ∈ h, KeepsGroups t.before t.label := by
  refine Run.invariant_iff (A := KeepsGroups) ?_ ?_ (Run.restrict_iff.mpr ⟨hplay, hclear⟩)
  · rintro s ⟨args, hopens⟩
    exact hopens.groupsComplete
  · rintro h s call s' hrun hcomplete ⟨haccepted, hcall⟩
    obtain ⟨hplay, hclear⟩ := Run.restrict_iff.mp hrun
    obtain ⟨hw, hl⟩ := Play.formed hplay
    exact haccepted.groupsComplete_iff hw hl (Play.groupsRegular hplay hclear) hcall hcomplete

theorem monopoly_with_house : ∃ h s, Play h s ∧ h.reverse.map (·.label) = brownHouse ∧
    (s.group .brown).map (·.houses) = [1, 0] ∧ GroupsComplete s := by
  obtain ⟨h, s, hplay, hlabels, hcheck⟩ := play_of_reaches duel brownHouse
    (fun _ s => decide ((s.group .brown).map (·.houses) = [1, 0])) (by decide) (by decide +kernel)
  have hcalls : ∀ call ∈ brownHouse,
      call.command ≠ .advanceAuction ∧ call.command.isReply = false := by
    decide
  have hcall : ∀ t ∈ h, t.label.command ≠ .advanceAuction ∧ t.label.command.isReply = false :=
    fun t ht => hcalls _ (label_mem_of_reverse hlabels ht)
  refine ⟨h, s, hplay, hlabels, of_decide_eq_true hcheck,
    ((monopolies_kept_iff hplay fun t ht => auctionClear_of_other (hcall t ht).1).mpr ?_).1⟩
  rintro t ht color q - - r - ⟨pid, tradeId, counter, trade, hcommand, -⟩
  have hreply := (hcall t ht).2
  rw [hcommand] at hreply
  cases hreply

/-- The street without a house is traded away. -/
def brownHouseTraded : List Call :=
  brownHouse ++ [callAt 0 [] (.proposeTrade 1 2 { positions := [4] } {}),
    callAt 0 [] (.respondTrade 2 7 .accept none)]

/-- Player `1` keeps a house in a group of which player `2` owns the other
street. -/
theorem trade_breaks_monopoly : ∃ h s, Play h s ∧ h.reverse.map (·.label) = brownHouseTraded ∧
    (s.group .brown).map (fun o => (o.houses, o.ownerId)) = [(1, some 1), (0, some 2)] ∧
      ¬ GroupsComplete s := by
  obtain ⟨h, s, hplay, hlabels, hcheck⟩ := play_of_reaches duel brownHouseTraded
    (fun _ s => decide ((s.group .brown).map (fun o => (o.houses, o.ownerId)) =
      [(1, some 1), (0, some 2)])) (by decide) (by decide +kernel)
  have hgroup : (s.group .brown).map (fun o => (o.houses, o.ownerId)) =
      [(1, some 1), (0, some 2)] := of_decide_eq_true hcheck
  refine ⟨h, s, hplay, hlabels, hgroup, fun hcomplete => ?_⟩
  have hrecord : ∀ {pair}, pair ∈ [(1, some 1), (0, some 2)] →
      ∃ o ∈ s.group .brown, (o.houses, o.ownerId) = pair := fun hpair => by
    rw [← hgroup] at hpair
    exact List.mem_map.mp hpair
  obtain ⟨o, ho, hone⟩ := hrecord (List.mem_cons_self)
  obtain ⟨o', ho', htwo⟩ := hrecord (List.mem_cons_of_mem _ List.mem_cons_self)
  obtain ⟨hhouses, howner⟩ := Prod.mk.inj hone
  obtain ⟨-, howner'⟩ := Prod.mk.inj htwo
  have hlevel : 0 < buildingLevel o := by
    unfold buildingLevel
    split <;> omega
  obtain ⟨pid, hpid⟩ := hcomplete .brown ⟨o, ho, hlevel⟩
  have h1 := (hpid o ho).symm.trans howner
  have h2 := (hpid o' ho').symm.trans howner'
  rw [h1] at h2
  cases h2

end Games

end Monopoly
