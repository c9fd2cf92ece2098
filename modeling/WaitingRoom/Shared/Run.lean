import Mathlib

/-!
# Runs of a machine

A machine answers an input in a state with an output and a next state. A run is
a list of events, oldest first, together with the state they lead to. Every
event remembers the states before and after it, so that a statement about the
past of a run needs nothing but its events.
-/

namespace WaitingRoom

set_option autoImplicit false

universe u v w

structure Event (S : Type u) (A : Type v) (O : Type w) where
  before : S
  input : A
  output : O
  after : S

variable {S : Type u} {A : Type v} {O : Type w}

def eventOf (exec : S → A → O × S) (s : S) (a : A) : Event S A O :=
  ⟨s, a, (exec s a).1, (exec s a).2⟩

theorem eventOf_after (exec : S → A → O × S) (s : S) (a : A) :
    (eventOf exec s a).after = (exec s a).2 := rfl

/-- The runs from `s₀` whose inputs are all allowed where they are made. -/
inductive Run (exec : S → A → O × S) (Allowed : S → A → Prop) (s₀ : S) :
    List (Event S A O) → S → Prop
  | nil : Run exec Allowed s₀ [] s₀
  | snoc {h : List (Event S A O)} {s : S} (a : A) :
    Run exec Allowed s₀ h s → Allowed s a →
      Run exec Allowed s₀ (h ++ [eventOf exec s a]) (exec s a).2

namespace Run

variable {exec : S → A → O × S} {Allowed : S → A → Prop} {s₀ s : S} {h : List (Event S A O)}

theorem single {a : A} (ha : Allowed s₀ a) :
    Run exec Allowed s₀ [eventOf exec s₀ a] (exec s₀ a).2 := .snoc a .nil ha

theorem append {m : S} {h' : List (Event S A O)} (h₁ : Run exec Allowed s₀ h m)
    (h₂ : Run exec Allowed m h' s) : Run exec Allowed s₀ (h ++ h') s := by
  induction h₂ with
  | nil => simpa using h₁
  | snoc a _ ha ih =>
    rw [← List.append_assoc]
    exact .snoc a ih ha

theorem of_append {h' : List (Event S A O)} (hr : Run exec Allowed s₀ (h ++ h') s) :
    ∃ m, Run exec Allowed s₀ h m ∧ Run exec Allowed m h' s := by
  generalize hl : h ++ h' = l at hr
  induction hr generalizing h' with
  | nil =>
    obtain ⟨rfl, rfl⟩ := List.append_eq_nil_iff.mp hl
    exact ⟨s₀, .nil, .nil⟩
  | snoc a hr ha ih =>
    rcases List.eq_nil_or_concat h' with rfl | ⟨init, e, rfl⟩
    · rw [List.append_nil] at hl
      subst hl
      exact ⟨_, .snoc a hr ha, .nil⟩
    · rw [List.concat_eq_append, ← List.append_assoc] at hl
      obtain ⟨hl, he⟩ := List.append_inj' hl rfl
      obtain ⟨m, h₁, h₂⟩ := ih hl
      rw [List.concat_eq_append, he]
      exact ⟨m, h₁, .snoc a h₂ ha⟩

theorem of_nil (hr : Run exec Allowed s₀ [] s) : s = s₀ := by
  generalize hl : ([] : List (Event S A O)) = l at hr
  cases hr with
  | nil => rfl
  | snoc => simp at hl

theorem of_cons {e : Event S A O} (hr : Run exec Allowed s₀ (e :: h) s) :
    Allowed s₀ e.input ∧ e = eventOf exec s₀ e.input ∧ Run exec Allowed e.after h s := by
  obtain ⟨m, h₁, h₂⟩ := of_append (h := [e]) hr
  generalize hl : [e] = l at h₁
  cases h₁ with
  | nil => simp at hl
  | @snoc l m a hl' ha =>
    have hs : [] ++ [e] = l ++ [eventOf exec m a] := hl
    obtain ⟨rfl, he⟩ := List.append_inj' hs rfl
    obtain rfl : e = eventOf exec m a := by simpa using he
    obtain rfl := of_nil hl'
    exact ⟨ha, rfl, h₂⟩

theorem split {e : Event S A O} (hr : Run exec Allowed s₀ h s) (he : e ∈ h) :
    ∃ h₁ h₂, h = h₁ ++ e :: h₂ ∧ Run exec Allowed s₀ h₁ e.before ∧ Allowed e.before e.input ∧
      e = eventOf exec e.before e.input ∧ Run exec Allowed e.after h₂ s := by
  obtain ⟨h₁, h₂, rfl⟩ := List.append_of_mem he
  obtain ⟨m, hr₁, hr₂⟩ := of_append hr
  obtain ⟨ha, heq, hrest⟩ := of_cons hr₂
  obtain rfl : e.before = m := by rw [heq]; rfl
  exact ⟨h₁, h₂, rfl, hr₁, ha, heq, hrest⟩

theorem invariant {I : S → Prop} (hr : Run exec Allowed s₀ h s) (h₀ : I s₀)
    (step : ∀ s a, I s → Allowed s a → I (exec s a).2) : I s := by
  induction hr with
  | nil => exact h₀
  | snoc a _ ha ih => exact step _ a ih ha

theorem pairwise {R : Event S A O → Event S A O → Prop} (hr : Run exec Allowed s₀ h s)
    (step : ∀ h s a, Run exec Allowed s₀ h s → Allowed s a → ∀ e ∈ h, R e (eventOf exec s a)) :
    h.Pairwise R := by
  induction hr with
  | nil => exact List.Pairwise.nil
  | snoc a hr ha ih =>
    refine List.pairwise_append.mpr ⟨ih, List.pairwise_singleton _ _, fun e he e' he' => ?_⟩
    obtain rfl := List.mem_singleton.mp he'
    exact step _ _ a hr ha e he

theorem mono {Allowed' : S → A → Prop} (hr : Run exec Allowed s₀ h s)
    (le : ∀ s a, Allowed s a → Allowed' s a) : Run exec Allowed' s₀ h s := by
  induction hr with
  | nil => exact .nil
  | snoc a _ ha ih => exact .snoc a ih (le _ a ha)

end Run

/-- The events of the inputs `as`, made one after another from `s`. -/
def eventsOf (exec : S → A → O × S) : S → List A → List (Event S A O)
  | _, [] => []
  | s, a :: as => eventOf exec s a :: eventsOf exec (exec s a).2 as

def stateAfter (exec : S → A → O × S) : S → List A → S
  | s, [] => s
  | s, a :: as => stateAfter exec (exec s a).2 as

theorem stateAfter_append (exec : S → A → O × S) (s : S) (as bs : List A) :
    stateAfter exec s (as ++ bs) = stateAfter exec (stateAfter exec s as) bs := by
  induction as generalizing s with
  | nil => rfl
  | cons a as ih => exact ih _

theorem eventsOf_append (exec : S → A → O × S) (s : S) (as bs : List A) :
    eventsOf exec s (as ++ bs) = eventsOf exec s as ++ eventsOf exec (stateAfter exec s as) bs := by
  induction as generalizing s with
  | nil => rfl
  | cons a as ih => exact congrArg (eventOf exec s a :: ·) (ih _)

theorem run_of_events {exec : S → A → O × S} {Allowed : S → A → Prop} {as : List A} (s : S)
    (h : ∀ e ∈ eventsOf exec s as, Allowed e.before e.input) :
    Run exec Allowed s (eventsOf exec s as) (stateAfter exec s as) := by
  induction as generalizing s with
  | nil => exact .nil
  | cons a as ih =>
    have hfirst : Run exec Allowed s [eventOf exec s a] (exec s a).2 :=
      .single (h (eventOf exec s a) List.mem_cons_self)
    exact hfirst.append (ih _ fun e he => h e (List.mem_cons_of_mem _ he))

theorem input_mem_of_event {exec : S → A → O × S} {as : List A} {s : S} {e : Event S A O}
    (he : e ∈ eventsOf exec s as) : e.input ∈ as := by
  induction as generalizing s with
  | nil => simp [eventsOf] at he
  | cons a as ih =>
    rcases List.mem_cons.mp he with rfl | he
    · exact List.mem_cons_self
    · exact List.mem_cons_of_mem _ (ih he)

theorem run_of_inputs {exec : S → A → O × S} {Allowed : S → A → Prop} {as : List A} (s : S)
    (h : ∀ a ∈ as, ∀ s, Allowed s a) :
    Run exec Allowed s (eventsOf exec s as) (stateAfter exec s as) :=
  run_of_events s fun e he => h e.input (input_mem_of_event he) e.before

end WaitingRoom
