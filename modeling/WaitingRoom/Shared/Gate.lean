import Mathlib

/-!
# A gate that closes on doubt

Work goes through a gate while it is open and may grant things that last for a
bounded lifetime. The gate can close at any moment, also when it is closed
already, and every closing takes a new fence. It opens again only at a time by
which everything granted before has ended, with a margin to spare. Clocks may be
read late or early when the gate closes; while it is open they do not go back.
-/

namespace WaitingRoom

set_option autoImplicit false

structure Gate where
  closed : Bool
  clock : Nat
  fence : Nat
  safeAt : Nat
  lifetime : Nat

namespace Gate

/-- The moves of a gate. A closing assumes at least the lifetime `minimum`. -/
inductive Step (minimum margin : Nat) : Gate → Gate → Prop
  | close (g : Gate) (now : Nat) :
    Step minimum margin g { g with
      closed := true
      fence := g.fence + 1
      safeAt := max (max now g.clock + max g.lifetime minimum + margin) g.safeAt }
  | work (g : Gate) (now : Nat) (isOpen : g.closed = false) (clock : g.clock ≤ now) :
    Step minimum margin g { g with clock := now }
  | extend (g : Gate) (n : Nat) (longer : g.lifetime ≤ n) :
    Step minimum margin g { g with lifetime := n }
  | reopen (g : Gate) (now : Nat) (isClosed : g.closed = true) (safe : g.safeAt ≤ now) :
    Step minimum margin g { g with closed := false, clock := now }

abbrev Path (minimum margin : Nat) : Gate → Gate → Prop :=
  Relation.ReflTransGen (Step minimum margin)

def Settled (g : Gate) : Prop := g.closed = true → g.clock ≤ g.safeAt

def horizon (g : Gate) : Nat := if g.closed then g.safeAt else g.clock

/-- The deadline `d` was granted through the gate and is accounted for. -/
def Covers (margin : Nat) (g : Gate) (d : Nat) : Prop :=
  d ≤ g.clock + g.lifetime ∧ (g.closed = true → d + margin ≤ g.safeAt)

variable {minimum margin : Nat} {g g' : Gate}

theorem covers_of_open {d : Nat} (h : g.closed = false) (hd : d ≤ g.clock + g.lifetime) :
    Covers margin g d := ⟨hd, fun hc => by simp [h] at hc⟩

structure Grows (g g' : Gate) : Prop where
  settled : g'.Settled
  fence : g.fence ≤ g'.fence
  safeAt : g.safeAt ≤ g'.safeAt
  lifetime : g.lifetime ≤ g'.lifetime
  clock : g.clock ≤ g'.clock
  horizon : g.horizon ≤ g'.horizon

theorem Step.grows (h : Step minimum margin g g') (hs : g.Settled) : Grows g g' := by
  unfold Settled at hs
  have same : ∀ n : Nat, n ≤ n := Nat.le_refl
  cases h with
  | close now =>
    refine ⟨fun _ => ?_, Nat.le_succ _, Nat.le_max_right _ _, same _, same _, ?_⟩
    · dsimp only
      omega
    · simp only [horizon, if_true]
      split <;> omega
  | work now isOpen clock =>
    refine ⟨fun hc => ?_, same _, same _, same _, clock, ?_⟩
    · simp [isOpen] at hc
    · simpa [horizon, isOpen] using clock
  | extend n longer => exact ⟨hs, same _, same _, longer, same _, same _⟩
  | reopen now isClosed safe =>
    refine ⟨fun hc => by simp at hc, same _, same _, same _, Nat.le_trans (hs isClosed) safe, ?_⟩
    simpa [horizon, isClosed] using safe

theorem Path.grows (h : Path minimum margin g g') (hs : g.Settled) : Grows g g' := by
  induction h with
  | refl => exact ⟨hs, Nat.le_refl _, Nat.le_refl _, Nat.le_refl _, Nat.le_refl _, Nat.le_refl _⟩
  | tail _ hstep ih =>
    have hnext := hstep.grows ih.settled
    exact ⟨hnext.settled, Nat.le_trans ih.fence hnext.fence, Nat.le_trans ih.safeAt hnext.safeAt,
      Nat.le_trans ih.lifetime hnext.lifetime, Nat.le_trans ih.clock hnext.clock,
      Nat.le_trans ih.horizon hnext.horizon⟩

theorem Step.covers {d : Nat} (h : Step minimum margin g g') (hs : g.Settled)
    (hd : Covers margin g d) : Covers margin g' d := by
  unfold Settled at hs
  obtain ⟨hlive, hclosed⟩ := hd
  cases h with
  | close now =>
    refine ⟨hlive, fun _ => ?_⟩
    dsimp only
    omega
  | work now isOpen clock =>
    refine ⟨?_, fun hc => ?_⟩
    · dsimp only
      omega
    · simp [isOpen] at hc
  | extend n longer =>
    refine ⟨?_, hclosed⟩
    dsimp only
    omega
  | reopen now isClosed safe =>
    have hs := hs isClosed
    refine ⟨?_, fun hc => by simp at hc⟩
    dsimp only
    omega

theorem Path.covers {d : Nat} (h : Path minimum margin g g') (hs : g.Settled)
    (hd : Covers margin g d) : Covers margin g' d := by
  induction h with
  | refl => exact hd
  | tail hpath hstep ih => exact hstep.covers (Path.grows hpath hs).settled ih

/-- `f` was the fence at a moment when the gate was open. -/
def Seen (g : Gate) (f : Nat) : Prop := f < g.fence ∨ f = g.fence ∧ g.closed = false

theorem Seen.lt_of_closed {f : Nat} (h : Seen g f) (hc : g.closed = true) : f < g.fence := by
  rcases h with h | ⟨-, h⟩
  · exact h
  · simp [h] at hc

theorem Step.seen {f : Nat} (h : Step minimum margin g g') (hf : Seen g f) : Seen g' f := by
  cases h with
  | close now =>
    unfold Seen at hf ⊢
    dsimp only
    omega
  | work => exact hf
  | extend => exact hf
  | reopen now isClosed => exact .inl (hf.lt_of_closed isClosed)

theorem Path.seen {f : Nat} (h : Path minimum margin g g') (hf : Seen g f) : Seen g' f := by
  induction h with
  | refl => exact hf
  | tail _ hstep ih => exact hstep.seen ih

theorem Step.fence_le (h : Step minimum margin g g') : g.fence ≤ g'.fence := by
  cases h with
  | close => exact Nat.le_succ _
  | work => exact Nat.le_refl _
  | extend => exact Nat.le_refl _
  | reopen => exact Nat.le_refl _

theorem Path.fence_le (h : Path minimum margin g g') : g.fence ≤ g'.fence := by
  induction h with
  | refl => exact Nat.le_refl _
  | tail _ hstep ih => exact Nat.le_trans ih hstep.fence_le

end Gate

end WaitingRoom
