import Monopoly.Lib.Keyed
import Monopoly.Lib.Runs

/-!
# Monopoly.Lib.Books

Double entry.  A payment takes from one party what it gives to another, so
the gains by a list of payments sum to nothing over all parties, and a system
whose steps change the balances by payments has, after every run, the opening
balances and the gains by everything that was paid.
-/

namespace Monopoly

structure Payment (K : Type) where
  payer : K
  payee : K
  amount : Int
  deriving DecidableEq, Repr

namespace Payment

variable {K : Type}

/-- The parties of the payments are among `parties`. -/
def Among (parties : List K) (payments : List (Payment K)) : Prop :=
  ∀ t ∈ payments, t.payer ∈ parties ∧ t.payee ∈ parties

variable [DecidableEq K] {parties : List K} {payments more : List (Payment K)} {k bank : K}

/-- What a payment adds to the balance of `k`. -/
def gain (k : K) (t : Payment K) : Int :=
  (if k = t.payee then t.amount else 0) + if k = t.payer then -t.amount else 0

/-- What the payments add to the balance of `k`. -/
def net (k : K) (payments : List (Payment K)) : Int := (payments.map (gain k)).sum

@[simp] theorem net_nil (k : K) : net k [] = 0 := rfl

@[simp] theorem net_cons (k : K) (t : Payment K) (payments : List (Payment K)) :
    net k (t :: payments) = gain k t + net k payments := by
  simp [net]

@[simp] theorem net_append (k : K) (payments more : List (Payment K)) :
    net k (payments ++ more) = net k payments + net k more := by
  simp [net]

omit [DecidableEq K] in
@[simp] theorem among_nil : Among parties [] := by
  simp [Among]

omit [DecidableEq K] in
@[simp] theorem among_cons {t : Payment K} : Among parties (t :: payments) ↔
    (t.payer ∈ parties ∧ t.payee ∈ parties) ∧ Among parties payments := by
  simp [Among]

omit [DecidableEq K] in
@[simp] theorem among_append :
    Among parties (payments ++ more) ↔ Among parties payments ∧ Among parties more :=
  List.forall_mem_append

/-- Who is no party is paid nothing. -/
theorem net_off (h : Among parties payments) (hk : k ∉ parties) : net k payments = 0 := by
  induction payments with
  | nil => rfl
  | cons t rest ih =>
      obtain ⟨⟨hpayer, hpayee⟩, hrest⟩ := among_cons.mp h
      have hne : k ≠ t.payee ∧ k ≠ t.payer :=
        ⟨fun heq => hk (heq ▸ hpayee), fun heq => hk (heq ▸ hpayer)⟩
      simp [gain, hne, ih hrest]

/-- Over all parties the gains sum to nothing. -/
theorem sum_net (hparties : parties.Nodup) (h : Among parties payments) :
    (parties.map (net · payments)).sum = 0 := by
  induction payments with
  | nil => simp
  | cons t rest ih =>
      obtain ⟨⟨hpayer, hpayee⟩, hrest⟩ := among_cons.mp h
      have hids : (parties.map fun k => k).Nodup := by simpa using hparties
      have hin := sum_at_key (fun k : K => k) hids hpayee t.amount
      have hout := sum_at_key (fun k : K => k) hids hpayer (-t.amount)
      simp only [net_cons, gain, List.sum_map_add, hin, hout, ih hrest]
      omega

/-- What the others have gained, one party has paid. -/
theorem sum_net_others (hparties : (bank :: parties).Nodup)
    (h : Among (bank :: parties) payments) :
    (parties.map (net · payments)).sum = -net bank payments := by
  have hall := sum_net hparties h
  simp only [List.map_cons, List.sum_cons] at hall
  omega

/-! A payment for each element of a list, to or from one party. -/

section Each

variable {α : Type} {key : α → K} {xs : List α} {a : α} {r : K}

theorem net_payees (hkeys : (xs.map key).Nodup) (ha : a ∈ xs) (hne : key a ≠ r) (f : α → Int) :
    net (key a) (xs.map fun x => ⟨r, key x, f x⟩) = f a := by
  have hgain : ∀ x ∈ xs, gain (key a) ⟨r, key x, f x⟩ = if key x = key a then f a else 0 := by
    intro x hx
    by_cases hk : key x = key a
    · simp [gain, hne, eq_of_key_eq key hkeys hx ha hk]
    · simp [gain, hne, hk, Ne.symm hk]
  rw [net, List.map_map, Function.comp_def, List.map_congr_left hgain, sum_at_key key hkeys ha]

theorem net_payers (hkeys : (xs.map key).Nodup) (ha : a ∈ xs) (hne : key a ≠ r) (f : α → Int) :
    net (key a) (xs.map fun x => ⟨key x, r, f x⟩) = -f a := by
  have hgain : ∀ x ∈ xs, gain (key a) ⟨key x, r, f x⟩ = if key x = key a then -f a else 0 := by
    intro x hx
    by_cases hk : key x = key a
    · simp [gain, hne, eq_of_key_eq key hkeys hx ha hk]
    · simp [gain, hne, hk, Ne.symm hk]
  rw [net, List.map_map, Function.comp_def, List.map_congr_left hgain, sum_at_key key hkeys ha]

/-- The one party pays them all. -/
theorem net_payer (hr : ∀ x ∈ xs, key x ≠ r) (f : α → Int) :
    net r (xs.map fun x => ⟨r, key x, f x⟩) = -(xs.map f).sum := by
  induction xs with
  | nil => simp
  | cons x rest ih =>
      obtain ⟨hx, hrest⟩ := List.forall_mem_cons.mp hr
      simp only [List.map_cons, net_cons, gain, hx.symm, if_false, if_true, ih hrest,
        List.sum_cons]
      omega

end Each

end Payment

open Payment

/-- Everything that was paid in a run, in its order. -/
def ledger {S L K : Type} (book : Taken S L → List (Payment K)) (h : List (Taken S L)) :
    List (Payment K) := h.reverse.flatMap book

namespace Run

variable {S L K : Type} {init : S → Prop} {step : S → L → S → Prop} {A : S → L → Prop}
  {book : Taken S L → List (Payment K)} {h : List (Taken S L)} {s : S}

@[simp] theorem ledger_cons (t : Taken S L) (h : List (Taken S L)) :
    ledger book (t :: h) = ledger book h ++ book t := by
  simp [ledger]

/-- Postings compose: when every step posts what it books, a run posts its
ledger. -/
theorem posts {R : S → List (Payment K) → S → Prop} (hrefl : ∀ s, R s [] s)
    (htrans : ∀ s m s' payments more, R s payments m → R m more s' → R s (payments ++ more) s')
    (hstep : ∀ h s l s', Run init step h s → A s l → step s l s' → R s (book ⟨s, l, s'⟩) s')
    (hrun : Run init step h s) (hok : ∀ t ∈ h, A t.before t.label) :
    ∃ s₀, init s₀ ∧ R s₀ (ledger book h) s := by
  induction hrun with
  | @start s hs => exact ⟨s, hs, hrefl s⟩
  | next hr hl ih =>
      obtain ⟨hlast, hrest⟩ := List.forall_mem_cons.mp hok
      obtain ⟨s₀, hs₀, hposted⟩ := ih hrest
      refine ⟨s₀, hs₀, ?_⟩
      rw [ledger_cons]
      exact htrans _ _ _ _ _ hposted (hstep _ _ _ _ hr hlast hl)

end Run

end Monopoly
