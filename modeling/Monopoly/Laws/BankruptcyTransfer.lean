import Monopoly.Spec.Estates
import Monopoly.Spec.Replay

/-!
# Monopoly.Laws.BankruptcyTransfer

What a player who is bankrupt towards another player leaves to the creditor:
all of the cash, less the interest on the mortgages taken over, all of the
properties as they are, and the jail cards.
-/

namespace Monopoly

/-! ## interest -/

set_option maxRecDepth 4000 in
/-- The interest on every mortgage of the boards is a tenth, rounded down. -/
theorem mortgageInterest_square (mode : GameMode) (pos : Nat) :
    mortgageInterest ((squareAt mode pos).mortgageValue.getD 0) =
      (squareAt mode pos).mortgageValue.getD 0 / 10 := by
  have hnothing : mortgageInterest 0 = 0 / 10 := by decide +kernel
  have hall : ∀ mode ∈ [GameMode.normal, .duel], ∀ space ∈ boardForMode mode,
      mortgageInterest (space.mortgageValue.getD 0) = space.mortgageValue.getD 0 / 10 := by
    decide +kernel
  unfold squareAt
  cases hfind : (boardForMode mode).find? fun space => decide (space.position = pos) with
  | none => exact hnothing
  | some space =>
      exact hall mode (by cases mode <;> decide) space (List.mem_of_find?_eq_some hfind)

/-- A tenth, rounded down, of the mortgage value of every mortgaged property
of the player. -/
def mortgageCharge (s : GameState) (d : PlayerState) : Int :=
  (d.ownedPositions.map fun pos => if (ownershipAt s.spaces pos).isMortgaged
    then (((squareAt s.gameMode pos).mortgageValue.getD 0 / 10 : Nat) : Int) else 0).sum

theorem interestOn_eq (s : GameState) (d : PlayerState) :
    interestOn s.gameMode s.spaces d.ownedPositions = mortgageCharge s d := by
  simp only [interestOn, mortgageCharge, mortgageInterest_square]

/-! ## the transfer -/

/-- What the bankruptcy of `d` towards `c` leads to. -/
structure TransferOutcome (s : GameState) (d c : PlayerState) (s' : GameState) : Prop where
  ids : s'.players.map (·.id) = s.players.map (·.id)
  heir : ∃ c' ∈ s'.players, ∃ owned : List Nat, c'.bare = { c.bare with
      balance := c.balance + d.balance - mortgageCharge s d
      ownedPositions := owned
      getOutOfJailCards := c.getOutOfJailCards + d.getOutOfJailCards } ∧
    owned.Pairwise (· < ·) ∧ ∀ q, q ∈ owned ↔ q ∈ c.ownedPositions ∨ q ∈ d.ownedPositions
  kept : ∀ q ∈ s.players, q.id ≠ d.id → q.id ≠ c.id → ∃ q' ∈ s'.players, q'.bare = q.bare
  positions : s'.spaces.map (·.position) = s.spaces.map (·.position)
  spaces : ∀ pos o, spaceAt s.spaces pos = .ok o → spaceAt s'.spaces pos = .ok
    (if o.ownerId = some d.id then { o with ownerId := some c.id } else o)
  bank : s'.bankHouses = s.bankHouses ∧ s'.bankHotels = s.bankHotels
  decks : s'.chanceDeck = s.chanceDeck ∧ s'.chestDeck = s.chestDeck
  out : ∃ d' ∈ s'.players, d'.id = d.id ∧ d'.isBankrupt = true ∧ d'.balance = 0 ∧
    d'.ownedPositions = [] ∧ d'.getOutOfJailCards = 0 ∧ d'.eliminatedAt = some s.turn.turnNumber
  settled : s'.bankruptcy = none
  goesOn : ∃ i, s.players[i]? = some d ∧ GoesOn s d.id i s'
  won : s'.status = .finished → s'.winnerId = some c.id

section Law

variable {s s' : GameState} {d c : PlayerState} {debt : BankruptcyState} {call : Call}

/-- An accepted declaration of a debtor with less cash than is owed to another
player leaves everything to that player, and the game is won or goes on. -/
theorem bankruptcy_transfer (hin : s.status = .inProgress) (hids : (s.players.map (·.id)).Nodup)
    (htitles : TitlesAgree s) (hd : d ∈ s.players) (hc : c ∈ s.players) (hne : c.id ≠ d.id)
    (hactive : c.isBankrupt = false) (hdebt : s.bankruptcy = some debt)
    (hdebtor : debt.debtorId = d.id) (hcreditor : debt.creditorId = some c.id)
    (hfunds : 0 ≤ d.balance ∧ d.balance < debt.amountOwed)
    (hcommand : call.command = .declareBankruptcy d.id) (h : Accepted s call s') :
    TransferOutcome s d c s' := by
  obtain ⟨command, env⟩ := call
  obtain rfl : command = .declareBankruptcy d.id := hcommand
  obtain ⟨-, m, events, rng, hdispatch, hfinish⟩ := h.handled
  obtain ⟨i, -, hi⟩ := nextPlayerIdx_eq hids hd
  -- the handler
  have hhandled : Ensures (dispatch s (.declareBankruptcy d.id) env) fun r =>
      resolveBankruptcy s d.id = .ok r.1.1 := by
    refine sat_map.mpr ?_
    rw [handleDeclareBankruptcy, hdebt]
    exact .guard fun _ => .after fun m hm => hm
  obtain ⟨e, hseats, hsettled, hstatus, hwinner, hturn, hafter, hgiven⟩ :=
    (resolveBankruptcy_ensures hids hdebt hdebtor hd).of_ok (hhandled.of_ok hdispatch)
  obtain ⟨hspaces, -, hframe⟩ := hgiven c.id hcreditor
  -- the end of the call
  have hothers : s.players.filter (isRecipient d.id) ≠ [] :=
    List.ne_nil_of_mem (List.mem_filter.mpr ⟨hc, by simp [isRecipient, hne, hactive]⟩)
  obtain ⟨hgoes, status, winnerId, turn, htidy⟩ := ends_without (takenOut_bankrupt s debt d) hseats
    hstatus hin hturn hwinner hsettled hids hi rfl hothers (fun _ _ => rfl) hafter hfinish
  have hseats' : seatsOf s'.players = s.seats.map (afterBankruptcy s debt d) :=
    htidy.seats_eq.trans hseats
  have hspaces' : s'.spaces = e.spaces := htidy.spaces
  constructor
  · exact ids_of_seats hseats' (takenOut_bankrupt s debt d).id
  · obtain ⟨c', hc', hbare⟩ := exists_of_seats hseats' hc
    refine ⟨c', hc', pySortedSet (c.ownedPositions ++ d.ownedPositions), hbare.trans ?_,
      pairwise_pySortedSet _, fun q => by simp⟩
    rw [afterBankruptcy, if_neg (show c.bare.id ≠ d.id from hne),
      if_pos (show debt.creditorId = some c.bare.id from hcreditor), interestOn_eq,
      Int.min_eq_left (Int.le_of_lt hfunds.2)]
    rfl
  · intro q hq hqd hqc
    obtain ⟨q', hq', hbare⟩ := exists_of_seats hseats' hq
    refine ⟨q', hq', hbare.trans ?_⟩
    have hother : debt.creditorId ≠ some q.bare.id := fun h =>
      hqc (Option.some.inj (h.symm.trans hcreditor))
    rw [afterBankruptcy, if_neg (show q.bare.id ≠ d.id from hqd), if_neg hother]
  · rw [hspaces']
    exact hspaces.positions
  · intro pos o hat
    rw [hspaces', hspaces.at hat, htitles.onListed hd hat]
    rfl
  · rw [hframe] at htidy
    cases htidy
    exact ⟨rfl, rfl⟩
  · rw [hframe] at htidy
    cases htidy
    exact ⟨rfl, rfl⟩
  · obtain ⟨d', hd', hbare⟩ := exists_of_seats hseats' hd
    have hout : d'.bare = ruined s.gameMode s.turn.turnNumber d.bare := hbare.trans (if_pos rfl)
    refine ⟨d', hd', ?_⟩
    show d'.bare.id = d.id ∧ d'.bare.isBankrupt = true ∧ d'.bare.balance = 0 ∧
      d'.bare.ownedPositions = [] ∧ d'.bare.getOutOfJailCards = 0 ∧
      d'.bare.eliminatedAt = some s.turn.turnNumber
    rw [hout]
    exact ⟨rfl, rfl, rfl, rfl, rfl, rfl⟩
  · exact htidy.bankruptcy.trans hsettled
  · exact ⟨i, hi, hgoes⟩
  · intro hover
    have hleft : c ∈ s.players.filter (isRecipient d.id) :=
      List.mem_filter.mpr ⟨hc, by simp [isRecipient, hne, hactive]⟩
    cases hgoes with
    | won hone _ hwon =>
        rw [hone] at hleft
        rw [hwon, List.mem_singleton.mp hleft]
    | passed _ _ hopen =>
        rw [hopen, hin] at hover
        cases hover

/-- Player `1` of three owes player `2` more than the cash, and has two
mortgages. -/
def owing (s : GameState) : GameState :=
  { s with
    players := s.players.map fun p =>
      if p.id = 1 then { p with balance := 70, ownedPositions := [2, 4], getOutOfJailCards := 1 }
      else if p.id = 2 then { p with ownedPositions := [40] }
      else p
    spaces := s.spaces.map fun o =>
      if o.position = 2 ∨ o.position = 4 then { o with ownerId := some 1, isMortgaged := true }
      else if o.position = 40 then { o with ownerId := some 2, houses := 0 }
      else o
    bankruptcy := some { debtorId := 1, creditorId := some 2, amountOwed := 100 }
    turn := { s.turn with phase := .bankruptResolution } }

/-- Player `2` receives the cash and both mortgages. -/
theorem bankruptcy_transfer_two_mortgages : ∃ s s' d c, d ∈ s.players ∧ c ∈ s.players ∧
    d.balance = 70 ∧ mortgageCharge s d = 6 ∧
    Accepted s (callAt 0 [] (.declareBankruptcy d.id)) s' ∧ TransferOutcome s d c s' := by
  obtain ⟨s, s', events, rng, hcheck, happly⟩ := exists_call (trio 1500) owing
    (callAt 0 [] (.declareBankruptcy 1)) (fun s _ _ => titled s && decide
      (s.status = .inProgress ∧ (s.players.map PlayerState.id).Nodup ∧
        s.bankruptcy = some { debtorId := 1, creditorId := some 2, amountOwed := 100 } ∧
        (∃ d ∈ s.players, d.id = 1 ∧ d.balance = 70 ∧ mortgageCharge s d = 6) ∧
        ∃ c ∈ s.players, c.id = 2 ∧ c.isBankrupt = false)) (by decide +kernel)
  obtain ⟨htitled, hfacts⟩ := Bool.and_eq_true_iff.mp hcheck
  obtain ⟨hin, hids, hdebt, ⟨d, hd, hdid, hcash, hcharge⟩, c, hc, hcid, hactive⟩ :=
    of_decide_eq_true hfacts
  rw [← hdid] at happly
  have haccepted : Accepted s (callAt 0 [] (.declareBankruptcy d.id)) s' := ⟨events, rng, happly⟩
  exact ⟨s, s', d, c, hd, hc, hcash, hcharge, haccepted, bankruptcy_transfer hin hids
    (of_titled htitled) hd hc (by rw [hdid, hcid]; decide) hactive hdebt hdid.symm
    (congrArg some hcid.symm) (by rw [hcash]; decide) rfl haccepted⟩

end Law

end Monopoly
