import Monopoly.Spec.Play

/-!
# Monopoly.Spec.Replay

Games replayed from their calls: `replay` applies one call after the other,
so a list of accepted calls is a game, and a property of its last state can
be computed.
-/

namespace Monopoly

/-- The calls in their order, with the history they leave, the latest call
first. -/
def replay (s : GameState) : List Call → Py (List (Taken GameState Call) × GameState)
  | [] => return ([], s)
  | call :: rest => do
      let ((s', _), _) ← apply s call.command call.env
      let (h, final) ← replay s' rest
      return (h ++ [⟨s, call, s'⟩], final)

theorem replay_run {init : GameState → Prop} {h₀ h : List (Taken GameState Call)}
    {s final : GameState} {calls : List Call} (hrun : Run init Accepted h₀ s)
    (hreplay : replay s calls = .ok (h, final)) :
    Run init Accepted (h ++ h₀) final ∧ h.reverse.map (·.label) = calls := by
  induction calls generalizing h₀ h s with
  | nil =>
      obtain ⟨rfl, rfl⟩ := Prod.mk.inj (Except.ok.inj hreplay)
      exact ⟨hrun, rfl⟩
  | cons call rest ih =>
      simp only [replay] at hreplay
      cases happly : apply s call.command call.env with
      | error e => simp [happly] at hreplay
      | ok r =>
          obtain ⟨⟨s', events⟩, rng⟩ := r
          simp only [happly, ok_bind] at hreplay
          cases hrest : replay s' rest with
          | error e => simp [hrest] at hreplay
          | ok r =>
              obtain ⟨h', final'⟩ := r
              simp only [hrest, ok_bind] at hreplay
              obtain ⟨rfl, rfl⟩ := Prod.mk.inj (Except.ok.inj hreplay)
              obtain ⟨hrun', hlabels⟩ := ih (hrun.next ⟨events, rng, happly⟩) hrest
              exact ⟨by simpa using hrun', by simp [hlabels]⟩

/-- The game from `args` with these calls, where the ids are handed out from
`1` on, passes the check: on its history and its last state. -/
def Reaches (args : NewGame) (calls : List Call)
    (check : List (Taken GameState Call) → GameState → Bool) : Bool :=
  match newGame (· + 1) args with
  | .error _ => false
  | .ok (s, _) =>
      match replay s calls with
      | .error _ => false
      | .ok (h, final) => check h final

theorem run_of_reaches (init : GameState → Prop) (args : NewGame) (calls : List Call)
    (check : List (Taken GameState Call) → GameState → Bool)
    (hinit : ∀ s, Opens args s → init s) (htwo : 2 ≤ args.members.length)
    (h : Reaches args calls check = true) :
    ∃ history s, Run init Accepted history s ∧ history.reverse.map (·.label) = calls ∧
      check history s = true := by
  unfold Reaches at h
  cases hnew : newGame (· + 1) args with
  | error e => simp [hnew] at h
  | ok r =>
      obtain ⟨s, rng⟩ := r
      simp only [hnew] at h
      cases hreplay : replay s calls with
      | error e => simp [hreplay] at h
      | ok r =>
          obtain ⟨history, final⟩ := r
          simp only [hreplay] at h
          have hopens : Opens args s :=
            ⟨htwo, (· + 1), fun _ _ h => Nat.add_right_cancel h, rng, hnew⟩
          obtain ⟨hrun, hlabels⟩ := replay_run (.start (hinit s hopens)) hreplay
          exact ⟨history, final, by simpa using hrun, hlabels, h⟩

theorem play_of_reaches (args : NewGame) (calls : List Call)
    (check : List (Taken GameState Call) → GameState → Bool)
    (htwo : 2 ≤ args.members.length) (h : Reaches args calls check = true) :
    ∃ history s, Play history s ∧ history.reverse.map (·.label) = calls ∧
      check history s = true :=
  run_of_reaches (∃ args, Opens args ·) args calls check (fun _ hopens => ⟨args, hopens⟩) htwo h

/-- Some new game passes the check. -/
theorem exists_new (args : NewGame) (check : GameState → Bool)
    (h : (match newGame (· + 1) args with
      | .error _ => false
      | .ok (s, _) => check s) = true) : ∃ s, check s = true := by
  split at h
  · cases h
  · rename_i s _ _
    exact ⟨s, h⟩

/-- Some game that is opened with `args`, and adjusted, takes the call and
passes the check: on the state before, the state after and the events. -/
theorem exists_call (args : NewGame) (adjust : GameState → GameState) (call : Call)
    (check : GameState → GameState → List GameEvent → Bool)
    (h : (match newGame (· + 1) args with
      | .error _ => false
      | .ok (s, _) =>
          match apply (adjust s) call.command call.env with
          | .error _ => false
          | .ok ((s', events), _) => check (adjust s) s' events) = true) :
    ∃ s s' events rng, check s s' events = true ∧
      apply s call.command call.env = .ok ((s', events), rng) := by
  split at h
  · cases h
  · rename_i s _ _
    split at h
    · cases h
    · rename_i s' events rng happly
      exact ⟨adjust s, s', events, rng, h, happly⟩

/-- A call that is checked for returning has returned. -/
theorem ok_of_any {α : Type} {x : Py α} {check : α → Bool}
    (h : x.toOption.any check = true) : ∃ a, x = .ok a ∧ check a = true := by
  cases x with
  | error e => cases h
  | ok a => exact ⟨a, rfl, h⟩

theorem label_mem_of_reverse {h : List (Taken GameState Call)} {calls : List Call}
    (hlabels : h.reverse.map (·.label) = calls) {t : Taken GameState Call} (ht : t ∈ h) :
    t.label ∈ calls := by
  rw [← hlabels]
  exact List.mem_map_of_mem (List.mem_reverse.mpr ht)

/-- The last two calls of a game. -/
theorem last_two_of_play {h : List (Taken GameState Call)} {s₂ : GameState} {calls : List Call}
    {c₁ c₂ : Call} (hplay : Play h s₂) (hlabels : h.reverse.map (·.label) = calls ++ [c₁, c₂]) :
    ∃ h₀ s s₁, h = ⟨s₁, c₂, s₂⟩ :: ⟨s, c₁, s₁⟩ :: h₀ ∧ Play h₀ s ∧ Accepted s c₁ s₁ ∧
      Accepted s₁ c₂ s₂ := by
  have hreversed := congrArg List.reverse hlabels
  simp only [List.map_reverse, List.reverse_reverse, List.reverse_append, List.reverse_cons,
    List.reverse_nil, List.nil_append, List.cons_append] at hreversed
  cases hplay with
  | start _ => cases hreversed
  | next hplay₁ ha₂ =>
      obtain ⟨rfl, hrest⟩ := List.cons.inj hreversed
      cases hplay₁ with
      | start _ => cases hrest
      | next hplay₀ ha₁ =>
          obtain ⟨rfl, -⟩ := List.cons.inj hrest
          exact ⟨_, _, _, rfl, hplay₀, ha₁, ha₂⟩

/-! ## sample games -/

/-- A game of two members, the ids `1` and `2` in their seats. -/
def duo (startingBalance : Int) : NewGame where
  gameId := 1
  sessionCode := "ABCDEF"
  members := [{ userId := 1, displayName := "Ada" }, { userId := 2, displayName := "Ben" }]
  rng := ⟨[1]⟩
  clock := ⟨0, 0⟩
  startingBalance := startingBalance
  gameMode := .normal

/-- A game of three members, the ids `1` to `3` in their seats. -/
def trio (startingBalance : Int) : NewGame :=
  { duo startingBalance with
    members := (duo startingBalance).members ++ [{ userId := 3, displayName := "Cem" }]
    rng := ⟨[2, 1]⟩ }

/-- A game of two members on the duel board, the ids `1` and `2` in their
seats. -/
def duel : NewGame := { duo 1500 with gameMode := .duel }

/-- A call at `nowMs`, with the numbers the generator is going to draw. -/
def callAt (nowMs : Int) (draws : List Nat) (command : GameCommand) : Call where
  command := command
  env := {
    rng := ⟨draws⟩
    clock := ⟨nowMs, nowMs * 1000⟩
    goSalary := 200
    jailFine := 50
    tradeId := 7 }

/-- Player `1` lands on position `4` and buys it. -/
def firstPurchase : List Call := [callAt 0 [0, 1] (.rollDice 1), callAt 0 [] (.buyProperty 1 4)]

end Monopoly
