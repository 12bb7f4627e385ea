import Monopoly.Game.Modes
import Monopoly.Lib.Checked
import Monopoly.Rules.Landing

/-!
# Monopoly.Spec.Board

What the boards and the decks are like: positions are `1, 2, ..`, purchasable
spaces have a price, and a card only ever moves a player to a space from
which fewer cards can follow.
-/

namespace Monopoly

/-! ## positions -/

/-- The number of spaces of a board. -/
def boardSize : GameMode → Nat
  | .normal => 40
  | .duel => 24

/-- `pos` is a position of the mode's board. -/
def OnBoard (mode : GameMode) (pos : Nat) : Prop := 1 ≤ pos ∧ pos ≤ boardSize mode

instance (mode : GameMode) (pos : Nat) : Decidable (OnBoard mode pos) :=
  inferInstanceAs (Decidable (_ ∧ _))

theorem boardPositions_eq (mode : GameMode) :
    (getGameConfig mode).boardPositions = List.range' 1 (boardSize mode) := by
  cases mode <;> rfl

theorem board_eq (mode : GameMode) : (getGameConfig mode).board = boardForMode mode := by
  cases mode <;> rfl

/-- The spaces are listed by position, from 1 on, without a gap. -/
theorem boardForMode_positions (mode : GameMode) :
    (boardForMode mode).map (·.position) = List.range' 1 (boardSize mode) := by
  cases mode <;> rfl

/-- The positions of the configuration are those of the board. -/
theorem mem_boardPositions {mode : GameMode} {pos : Nat} :
    pos ∈ (getGameConfig mode).boardPositions ↔ OnBoard mode pos := by
  rw [boardPositions_eq, List.mem_range'_1, OnBoard]
  omega

theorem boardSize_pos (mode : GameMode) : 0 < boardSize mode := by
  cases mode <;> decide

/-! ## squares -/

/-- The board space at `pos`; off the board, a corner where nothing happens. -/
def squareAt (mode : GameMode) (pos : Nat) : BoardSpace :=
  ((boardForMode mode).find? fun space => decide (space.position = pos)).getD
    { position := pos, type := .corner, name := "" }

/-- `pos` is a space that can be bought. -/
def Purchasable (mode : GameMode) (pos : Nat) : Prop :=
  (squareAt mode pos).type ∈ purchasableTypes

instance (mode : GameMode) (pos : Nat) : Decidable (Purchasable mode pos) :=
  inferInstanceAs (Decidable (_ ∈ _))

/-- A position is on the board when a space has it. -/
theorem onBoard_iff_square {mode : GameMode} {pos : Nat} :
    OnBoard mode pos ↔ ∃ space ∈ boardForMode mode, space.position = pos := by
  rw [← mem_boardPositions, boardPositions_eq, ← boardForMode_positions, List.mem_map]

/-- Looking up a space of the board finds it. -/
theorem getBoardSpace_eq {mode : GameMode} {pos : Nat} (h : OnBoard mode pos) :
    getBoardSpace pos mode = .ok (squareAt mode pos) := by
  unfold getBoardSpace squareAt
  cases hf : (boardForMode mode).find? fun space => decide (space.position = pos) with
  | some space => rfl
  | none =>
      obtain ⟨space, hmem, hpos⟩ := onBoard_iff_square.mp h
      exact absurd (List.find?_eq_none.mp hf space hmem) (by simpa using hpos)

/-- Only spaces of the board are found. -/
theorem onBoard_of_getBoardSpace {mode : GameMode} {pos : Nat} {space : BoardSpace}
    (h : getBoardSpace pos mode = .ok space) : OnBoard mode pos := by
  unfold getBoardSpace at h
  cases hf : (boardForMode mode).find? fun space => decide (space.position = pos) with
  | none => simp [hf, orRaise] at h
  | some found =>
      exact onBoard_iff_square.mpr ⟨found, List.mem_of_find?_eq_some hf,
        by simpa using List.find?_some hf⟩

/-- `is_purchasable` decides whether a space can be bought, and raises nothing
on the board. -/
theorem isPurchasable_eq {mode : GameMode} {pos : Nat} (h : OnBoard mode pos) :
    isPurchasable pos mode = .ok (decide (Purchasable mode pos)) := by
  unfold isPurchasable
  rw [getBoardSpace_eq h]
  rfl

/-- What can be bought is on the board. -/
theorem Purchasable.onBoard {mode : GameMode} {pos : Nat} (h : Purchasable mode pos) :
    OnBoard mode pos := by
  unfold Purchasable squareAt at h
  cases hf : (boardForMode mode).find? fun space => decide (space.position = pos) with
  | some space =>
      exact onBoard_iff_square.mpr ⟨space, List.mem_of_find?_eq_some hf,
        by simpa using List.find?_some hf⟩
  | none => rw [hf] at h; simp [purchasableTypes] at h

/-- A fact about every board position, from a check of the finitely many. -/
theorem forall_onBoard {P : GameMode → Nat → Prop} {mode : GameMode} {pos : Nat}
    (hn : ∀ pos ∈ List.range' 1 40, P .normal pos) (hd : ∀ pos ∈ List.range' 1 24, P .duel pos)
    (h : OnBoard mode pos) : P mode pos := by
  obtain ⟨h1, h2⟩ := h
  cases mode with
  | normal => exact hn pos (List.mem_range'_1.mpr (by simp only [boardSize] at h2; omega))
  | duel => exact hd pos (List.mem_range'_1.mpr (by simp only [boardSize] at h2; omega))

set_option maxRecDepth 4000 in
/-- Every purchasable space has a positive price. -/
theorem Purchasable.price_pos {mode : GameMode} {pos : Nat} (h : Purchasable mode pos) :
    ∃ price, (squareAt mode pos).price = some price ∧ 0 < price := by
  have hall : ∀ mode pos, OnBoard mode pos → Purchasable mode pos →
      0 < (squareAt mode pos).price.getD 0 :=
    fun _ _ hb => forall_onBoard (P := fun mode pos => Purchasable mode pos →
      0 < (squareAt mode pos).price.getD 0) (by decide) (by decide) hb
  have hp := hall mode pos h.onBoard h
  cases hprice : (squareAt mode pos).price with
  | none => rw [hprice] at hp; simp at hp
  | some price => rw [hprice] at hp; exact ⟨price, rfl, hp⟩

set_option maxRecDepth 4000 in
theorem onBoard_startPosition (mode : GameMode) :
    OnBoard mode (getGameConfig mode).startPosition := by
  cases mode <;> decide

theorem onBoard_jailPosition (mode : GameMode) :
    OnBoard mode (getGameConfig mode).jailPosition := by
  cases mode <;> decide

/-! ## cards -/

/-- The Get Out of Jail Free card that goes back to a deck. -/
def jailCard : CardKind → CardId
  | .chance => chanceJailCard
  | .communityChest => chestJailCard

/-- A card that can be in the mode's deck of this kind.  Bankruptcy and
surrender put the two jail cards back in either mode. -/
def DeckCard (mode : GameMode) (kind : CardKind) (id : CardId) : Prop :=
  id ∈ jailCard kind :: fullDeck kind mode

/-- Where a card sends the player: the destination, whether the salary is
due on the way, the nesting it adds, and the rent multiplier there. -/
structure CardMove where
  dest : Nat
  salaryDue : Bool
  nesting : Nat
  multiplier : Nat

/-- The spaces a card that moves to the nearest one chooses from. -/
def nearestTargets (mode : GameMode) : NearestTarget → List Nat
  | .railroad => (getGameConfig mode).railroadPositions
  | .utility => (getGameConfig mode).utilityPositions

/-- The move a card makes from `pos`; `none` for a card that is carried out
in place. -/
def cardMove (mode : GameMode) (pos : Nat) : CardEffect → Option CardMove
  | .advanceTo dest bonus => some ⟨dest, decide (dest < pos) && bonus, 0, 1⟩
  | .advanceToNearest target payDouble =>
      let dest := (nearestPosition pos (nearestTargets mode target) mode).toOption.getD pos
      some ⟨dest, decide (dest < pos), 0, if payDouble then 2 else 1⟩
  | .goBack spaces =>
      some ⟨(((pos : Int) - 1 - spaces) % (boardSize mode : Int)).toNat + 1, false, 1, 1⟩
  | _ => none

/-- How many cards a landing on `pos` can draw at most. -/
def cardsAhead (mode : GameMode) (pos : Nat) : Nat :=
  match (squareAt mode pos).type.cardKind, mode with
  | some .chance, .normal => 2
  | some _, _ => 1
  | none, _ => 0

/-- The card `id` exists, and drawn at `pos` it moves the player only to a
space of the board with fewer cards ahead. -/
def leadsOn (mode : GameMode) (pos : Nat) (id : CardId) : Bool :=
  match getCard id with
  | .ok card => (cardMove mode pos card.effect).all fun move =>
      decide (OnBoard mode move.dest) && decide (cardsAhead mode move.dest < cardsAhead mode pos)
  | .error _ => false

set_option maxRecDepth 100000 in

/-- Every card of a deck leads on well from every space that draws from the
deck: checked card by card. -/
theorem leadsOn_of_deckCard {mode : GameMode} {pos : Nat} {kind : CardKind} {id : CardId}
    (h : OnBoard mode pos) (hkind : (squareAt mode pos).type.cardKind = some kind)
    (hid : DeckCard mode kind id) : leadsOn mode pos id = true := by
  have hall : ∀ mode pos, OnBoard mode pos → ∀ kind ∈ (squareAt mode pos).type.cardKind,
      ∀ id ∈ jailCard kind :: fullDeck kind mode, leadsOn mode pos id = true :=
    fun _ _ hb => forall_onBoard (P := fun mode pos => ∀ kind ∈ (squareAt mode pos).type.cardKind,
      ∀ id ∈ jailCard kind :: fullDeck kind mode, leadsOn mode pos id = true)
      (by decide) (by decide) hb
  exact hall mode pos h kind hkind id hid

/-- What leading on means: the card exists, and the space it moves to has fewer
cards ahead. -/
theorem getCard_of_leadsOn {mode : GameMode} {pos : Nat} {id : CardId}
    (h : leadsOn mode pos id = true) : ∃ card, getCard id = .ok card ∧
      ∀ move ∈ cardMove mode pos card.effect,
        OnBoard mode move.dest ∧ cardsAhead mode move.dest < cardsAhead mode pos := by
  unfold leadsOn at h
  cases hc : getCard id with
  | ok card => exact ⟨card, rfl, by simpa [hc, Option.all_eq_true] using h⟩
  | error e => simp [hc] at h

set_option maxRecDepth 100000 in
/-- The nearest railroad and utility are found from every position. -/
theorem nearestPosition_ok {mode : GameMode} {pos : Nat} (h : OnBoard mode pos)
    (target : NearestTarget) :
    ∃ dest, nearestPosition pos (nearestTargets mode target) mode = .ok dest := by
  have hall : ∀ mode pos, OnBoard mode pos → ∀ target ∈ [NearestTarget.railroad, .utility],
      (nearestPosition pos (nearestTargets mode target) mode).toOption.isSome = true :=
    fun _ _ hb => forall_onBoard (P := fun mode pos =>
      ∀ target ∈ [NearestTarget.railroad, .utility],
        (nearestPosition pos (nearestTargets mode target) mode).toOption.isSome = true)
      (by decide) (by decide) hb
  have hsome := hall mode pos h target (by cases target <;> simp)
  cases hp : nearestPosition pos (nearestTargets mode target) mode with
  | ok dest => exact ⟨dest, rfl⟩
  | error e => rw [hp] at hsome; simp [Except.toOption] at hsome

/-! ## walking -/

variable {mode : GameMode} {pos dest steps : Nat}

theorem pyIndex_boardPositions (h : OnBoard mode pos) :
    pyIndex (getGameConfig mode).boardPositions pos = .ok (pos - 1) := by
  obtain ⟨h1, h2⟩ := h
  have hidx : (List.range' 1 (boardSize mode)).findIdx? (fun x => decide (x = pos)) =
      some (pos - 1) := by
    rw [List.findIdx?_eq_some_iff_getElem]
    refine ⟨by simp; omega, by simp; omega, ?_⟩
    intro j hj
    simp
    omega
  rw [boardPositions_eq, pyIndex, hidx]
  rfl

theorem pyGet_boardPositions {i : Nat} (h : i < boardSize mode) :
    pyGet (getGameConfig mode).boardPositions i = .ok (i + 1) := by
  have hget : (List.range' 1 (boardSize mode))[i]? = some (i + 1) := by
    rw [List.getElem?_eq_getElem (by simpa using h)]
    simp [Nat.add_comm]
  simp [boardPositions_eq, pyGet, hget, orRaise]

theorem length_boardPositions (mode : GameMode) :
    (getGameConfig mode).boardPositions.length = boardSize mode := by
  simp [boardPositions_eq]

theorem pyMod_board (a : Int) (mode : GameMode) :
    pyMod a (boardSize mode) = .ok (a % (boardSize mode : Int)).toNat := by
  simp [pyMod, Nat.pos_iff_ne_zero.mp (boardSize_pos mode)]

/-- `steps` spaces on from `pos`. -/
def walkTo (mode : GameMode) (pos steps : Nat) : Nat := (pos - 1 + steps) % boardSize mode + 1

/-- A walk ends on the board. -/
theorem onBoard_walkTo (mode : GameMode) (pos steps : Nat) :
    OnBoard mode (walkTo mode pos steps) := by
  have hlt := Nat.mod_lt (pos - 1 + steps) (boardSize_pos mode)
  exact ⟨by simp only [walkTo]; omega, by simp only [walkTo]; omega⟩

/-- `advance_position` walks around the board, and says whether it passed the
start. -/
theorem advancePosition_eq (h : OnBoard mode pos) (steps : Nat) :
    advancePosition pos steps mode =
      .ok (walkTo mode pos steps, decide (boardSize mode ≤ pos - 1 + steps)) := by
  have hlt := Nat.mod_lt (pos - 1 + steps) (boardSize_pos mode)
  have hmod : (((pos - 1 : Nat) + (steps : Nat) : Int) % (boardSize mode : Int)).toNat =
      (pos - 1 + steps) % boardSize mode := by
    rw [← Int.natCast_add, ← Int.natCast_emod, Int.toNat_natCast]
  simp only [advancePosition, pyIndex_boardPositions h, pyMod_board, ok_bind, hmod,
    pyGet_boardPositions hlt, length_boardPositions]
  rfl

/-- `steps_to` counts the steps forward, around the board where the target lies
behind. -/
theorem stepsTo_eq (h : OnBoard mode pos) (hd : OnBoard mode dest) :
    stepsTo pos dest mode =
      .ok (if pos ≤ dest then dest - pos else boardSize mode - pos + dest) := by
  have h1 := h.1
  have h2 := h.2
  have hd1 := hd.1
  simp only [stepsTo, pyIndex_boardPositions h, pyIndex_boardPositions hd, ok_bind,
    length_boardPositions]
  by_cases hle : pos ≤ dest
  · rw [if_pos (by omega), if_pos hle]
    exact congrArg Except.ok (by omega)
  · rw [if_neg (by omega), if_neg hle]
    exact congrArg Except.ok (by omega)

/-- Walking the steps to `dest` arrives there, and passes GO when `dest` is
behind. -/
theorem walk_stepsTo (h : OnBoard mode pos) (hd : OnBoard mode dest) :
    ∃ steps, stepsTo pos dest mode = .ok steps ∧
      advancePosition pos steps mode = .ok (dest, decide (dest < pos)) := by
  refine ⟨_, stepsTo_eq h hd, ?_⟩
  rw [advancePosition_eq h]
  obtain ⟨h1, h2⟩ := h
  obtain ⟨hd1, hd2⟩ := hd
  by_cases hle : pos ≤ dest
  · have hmod : (pos - 1 + (dest - pos)) % boardSize mode = dest - 1 := by
      rw [show pos - 1 + (dest - pos) = dest - 1 by omega, Nat.mod_eq_of_lt (by omega)]
    simp only [walkTo, if_pos hle, hmod, Except.ok.injEq, Prod.mk.injEq, decide_eq_decide]
    omega
  · have hmod : (pos - 1 + (boardSize mode - pos + dest)) % boardSize mode = dest - 1 := by
      rw [show pos - 1 + (boardSize mode - pos + dest) = boardSize mode + (dest - 1) by omega,
        Nat.add_mod_left, Nat.mod_eq_of_lt (by omega)]
    simp only [walkTo, if_neg hle, hmod, Except.ok.injEq, Prod.mk.injEq, decide_eq_decide]
    omega

end Monopoly
