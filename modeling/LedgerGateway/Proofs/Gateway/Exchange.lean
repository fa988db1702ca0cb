import LedgerGateway.Gateway.Node
import LedgerGateway.Proofs.Except

/-!
# Dialogues

`outcome` is how a dialogue ends after a history, and what was asked by then. A dialogue that ends
with a value is taken apart step by step: `outcome_bind_eq_ok` gives the value of its first step
and the history in between. What a dialogue has asked is put together from what its steps ask,
however it ends.
-/

namespace LedgerGateway.Exchange

variable {ε ε' α β : Type}

/-- How a dialogue ends after a history, and what was asked by then. -/
def outcome (x : Exchange ε α) (before : History) : Except ε α × History := x.run.run before

@[simp] theorem outcome_pure (a : α) (before : History) :
    outcome (pure a : Exchange ε α) before = (.ok a, before) := rfl

@[simp] theorem outcome_throw (e : ε) (before : History) :
    outcome (throw e : Exchange ε α) before = (.error e, before) := rfl

@[simp] theorem outcome_ask (question : Question) (answer : History → Except ε α)
    (before : History) :
    outcome (ask question answer) before = (answer before, before ++ [question]) := rfl

/-- A value or error that takes no question. -/
@[simp] theorem outcome_liftM (x : Except ε α) (before : History) :
    outcome (liftM x : Exchange ε α) before = (x, before) := by
  cases x <;> rfl

theorem liftM_ok_bind (a : α) (f : α → Exchange ε β) :
    ((liftM (Except.ok a : Except ε α) : Exchange ε α) >>= f) = f a := rfl

/-- A dialogue that cannot end with an error. -/
@[simp] theorem outcome_liftM_state (x : StateM History α) (before : History) :
    outcome (liftM x : Exchange ε α) before = (.ok (x.run before).1, (x.run before).2) := rfl

@[simp] theorem outcome_adapt (x : Exchange ε α) (f : ε → ε') (before : History) :
    outcome (ExceptT.adapt f x) before =
      ((outcome x before).1.mapError f, (outcome x before).2) := by
  rfl

theorem outcome_bind_of_ok {x : Exchange ε α} {f : α → Exchange ε β} {before middle : History}
    {a : α} (h : outcome x before = (.ok a, middle)) :
    outcome (x >>= f) before = outcome (f a) middle := by
  have hbind : outcome (x >>= f) before =
      ExceptT.bindCont f (outcome x before).1 (outcome x before).2 := rfl
  rw [hbind, h]
  rfl

theorem outcome_bind_of_error {x : Exchange ε α} {f : α → Exchange ε β} {before middle : History}
    {e : ε} (h : outcome x before = (.error e, middle)) :
    outcome (x >>= f) before = (.error e, middle) := by
  have hbind : outcome (x >>= f) before =
      ExceptT.bindCont f (outcome x before).1 (outcome x before).2 := rfl
  rw [hbind, h]
  rfl

/-- What a step leaves to the steps behind it, if all of them end with a value. -/
theorem outcome_bind_eq_ok {x : Exchange ε α} {f : α → Exchange ε β} {before after : History}
    {b : β} :
    outcome (x >>= f) before = (.ok b, after) ↔
      ∃ a middle, outcome x before = (.ok a, middle) ∧ outcome (f a) middle = (.ok b, after) := by
  constructor
  · intro h
    match hx : outcome x before with
    | (.ok a, middle) =>
      rw [outcome_bind_of_ok hx] at h
      exact ⟨a, middle, rfl, h⟩
    | (.error e, middle) =>
      rw [outcome_bind_of_error hx] at h
      cases h
  · rintro ⟨a, middle, hx, hf⟩
    rw [outcome_bind_of_ok hx, hf]

/-- A step that takes no question leaves the history alone. -/
theorem outcome_liftM_bind_eq_ok {x : Except ε α} {f : α → Exchange ε β} {before after : History}
    {b : β} :
    outcome (liftM x >>= f) before = (.ok b, after) ↔
      ∃ a, x = .ok a ∧ outcome (f a) before = (.ok b, after) := by
  rw [outcome_bind_eq_ok]
  constructor
  · rintro ⟨a, middle, hx, hf⟩
    rw [outcome_liftM, Prod.mk.injEq] at hx
    obtain ⟨rfl, rfl⟩ := hx
    exact ⟨a, rfl, hf⟩
  · rintro ⟨a, rfl, hf⟩
    exact ⟨a, before, outcome_liftM _ _, hf⟩

/-! ## Questions of a kind -/

/-- However the dialogue ends, it has asked questions of one kind only. -/
def AsksOnly (P : Question → Prop) (x : Exchange ε α) : Prop :=
  ∀ before, ∃ asked, (outcome x before).2 = before ++ asked ∧ ∀ q ∈ asked, P q

variable {P : Question → Prop}

theorem asksOnly_of_history {x : Exchange ε α} (h : ∀ before, (outcome x before).2 = before) :
    AsksOnly P x := fun before => ⟨[], by simp [h before], by simp⟩

theorem asksOnly_pure (a : α) : AsksOnly P (pure a : Exchange ε α) :=
  asksOnly_of_history fun _ => rfl

theorem asksOnly_throw (e : ε) : AsksOnly P (throw e : Exchange ε α) :=
  asksOnly_of_history fun _ => rfl

theorem asksOnly_liftM (x : Except ε α) : AsksOnly P (liftM x : Exchange ε α) :=
  asksOnly_of_history fun before => by rw [outcome_liftM]

theorem asksOnly_ask {question : Question} {answer : History → Except ε α} (h : P question) :
    AsksOnly P (ask question answer) := fun before =>
  ⟨[question], by rw [outcome_ask], by simpa using h⟩

theorem asksOnly_adapt {x : Exchange ε α} (f : ε → ε') (h : AsksOnly P x) :
    AsksOnly P (ExceptT.adapt f x) := by
  intro before
  obtain ⟨asked, hasked, hP⟩ := h before
  exact ⟨asked, by rw [outcome_adapt, hasked], hP⟩

/-- Steps that ask questions of one kind make a dialogue that does. -/
theorem asksOnly_bind {x : Exchange ε α} {f : α → Exchange ε β} (hx : AsksOnly P x)
    (hf : ∀ a, AsksOnly P (f a)) : AsksOnly P (x >>= f) := by
  intro before
  obtain ⟨asked, hasked, hP⟩ := hx before
  match h : outcome x before with
  | (.ok a, middle) =>
    obtain ⟨more, hmore, hP'⟩ := hf a middle
    have hmiddle : middle = before ++ asked := by rw [← hasked, h]
    refine ⟨asked ++ more, ?_, ?_⟩
    · rw [outcome_bind_of_ok h, hmore, hmiddle, List.append_assoc]
    · intro q hq
      rcases List.mem_append.mp hq with hq | hq
      · exact hP q hq
      · exact hP' q hq
  | (.error e, middle) =>
    have hmiddle : middle = before ++ asked := by rw [← hasked, h]
    exact ⟨asked, by rw [outcome_bind_of_error h, hmiddle], hP⟩

/-! ## Steps without questions -/

theorem history_of_silent {x : Exchange ε α} (h : AsksOnly (fun _ => False) x) (before : History) :
    (outcome x before).2 = before := by
  obtain ⟨asked, hasked, hnone⟩ := h before
  rw [hasked, List.eq_nil_iff_forall_not_mem.mpr hnone, List.append_nil]

theorem history_bind {x : Exchange ε α} {f : α → Exchange ε β}
    (hf : ∀ a, AsksOnly (fun _ => False) (f a)) (before : History) :
    (outcome (x >>= f) before).2 = (outcome x before).2 := by
  match hx : outcome x before with
  | (.ok a, middle) => rw [outcome_bind_of_ok hx, history_of_silent (hf a)]
  | (.error e, middle) => rw [outcome_bind_of_error hx]

end LedgerGateway.Exchange
