import WaitingRoom.Trust.History

/-!
# Clock quarantine

Within one process the high-water mark of the gate is the greatest time it has
sampled. A sample below it holds the gate. The hold outlives every later call but
one: the acceptance of a newer generation that was issued at or after the mark.
-/

namespace WaitingRoom.Trust

set_option autoImplicit false

variable {x : Platform}

/-- The calls of one process, after its gate was opened. -/
abbrev ProcessRun (x : Platform) : Node → List GateEvent → Node → Prop :=
  Run (exec x) fun _ c => ∃ now, c.time = some now

/-- The gate is latched closed, or held since a time that is at least `mark`. -/
def Gate.Held (mark : ℤ) (g : Gate) : Prop :=
  g.failed = true ∨ g.clockHold = true ∧ mark ≤ g.recoveryAfter ∧ mark ≤ g.lastClock

/-- The call accepts a publication that is newer than the snapshot of the gate and was
issued at or after `mark`. -/
def Releases (x : Platform) (mark : ℤ) (e : GateEvent) : Prop :=
  ∃ g raw now s, e.before.gate = some g ∧ e.input = .apply raw now .done ∧ e.output = .done ∧
    verify x g.params raw = some s ∧ g.current.generation < s.generation ∧ mark ≤ s.issuedAt

/-- The gate of a process with the calls `h` behind it has their greatest time as its
high-water mark, unless it is latched closed. -/
def Gate.Clocked (h : List GateEvent) (g : Gate) : Prop :=
  (∀ e ∈ h, ∀ t, e.input.time = some t → t ≤ g.lastClock) ∧
    (g.lastClock = 0 ∨ ∃ e ∈ h, e.input.time = some g.lastClock)

section Step

variable {g g' : Gate} {stored stored' : Option Bytes} {c : Call} {a : Answer}

theorem Gate.Does.failed_of (h : g.Does x stored c a g' stored') (hf : g.failed = true) :
    g'.failed = true := by
  cases h with
  | latched => exact hf
  | wentBack | refused | repeated | accepted | lost | served => simp_all

theorem Gate.Does.held {mark : ℤ} (h : g.Does x stored c a g' stored') (hh : g.Held mark) :
    g'.Held mark ∨ ∃ raw now s, c = .apply raw now .done ∧ a = .done ∧
      verify x g.params raw = some s ∧ g.current.generation < s.generation ∧ mark ≤ s.issuedAt := by
  rcases hh with hf | ⟨hhold, hafter, hlast⟩
  · exact .inl (.inl (h.failed_of hf))
  · cases h with
    | latched _ hf => exact .inl (.inl hf)
    | wentBack => exact .inl (.inr ⟨rfl, hlast, hlast⟩)
    | refused _ _ hle => exact .inl (.inr ⟨hhold, hafter, hlast.trans hle⟩)
    | repeated _ _ _ hno => simp [hhold] at hno
    | accepted _ _ hfresh =>
      exact .inr ⟨_, _, _, rfl, rfl, hfresh.verified, hfresh.generation,
        hafter.trans (hfresh.issued hhold)⟩
    | lost => exact .inl (.inl rfl)
    | served _ _ hno => simp [hhold] at hno

theorem Gate.Does.held_of_lt {now : ℤ} (h : g.Does x stored c a g' stored')
    (hc : c.time = some now) (hlt : now < g.lastClock) : g'.Held g.lastClock := by
  cases h with
  | latched _ hf => exact .inl hf
  | wentBack => exact .inr ⟨rfl, le_refl _, le_refl _⟩
  | refused hc' _ hle =>
    obtain rfl := Option.some.inj (hc.symm.trans hc')
    omega
  | repeated _ hle | accepted _ hle | lost _ hle | served _ hle =>
    obtain rfl := Option.some.inj hc
    omega

theorem Gate.Held.not_served {mark : ℤ} {s : Snapshot} (hh : g.Held mark) :
    ¬ g.Does x stored c (.served s) g' stored' := by
  intro h
  cases h with
  | served hopen _ hno => rcases hh with hf | ⟨hhold, -⟩ <;> simp_all

theorem Gate.Does.lastClock {now : ℤ} (h : g.Does x stored c a g' stored')
    (hc : c.time = some now) (hopen : g'.failed = false) :
    g.failed = false ∧ g.lastClock ≤ g'.lastClock ∧ now ≤ g'.lastClock ∧
      (g'.lastClock = g.lastClock ∨ g'.lastClock = now) := by
  cases h with
  | latched _ hf => simp [hf] at hopen
  | wentBack hc' hg hlt =>
    obtain rfl := Option.some.inj (hc.symm.trans hc')
    exact ⟨hg, le_refl _, hlt.le, .inl rfl⟩
  | refused hc' hg hle =>
    obtain rfl := Option.some.inj (hc.symm.trans hc')
    exact ⟨hg, hle, le_refl _, .inr rfl⟩
  | repeated hg hle | accepted hg hle | served hg hle =>
    obtain rfl := Option.some.inj hc
    exact ⟨hg, hle, le_refl _, .inr rfl⟩
  | lost => cases hopen

end Step

theorem ProcessRun.gate {n m : Node} {events : List GateEvent} (hr : ProcessRun x n events m)
    {g : Gate} (hg : n.gate = some g) : ∃ g', m.gate = some g' := by
  induction hr with
  | nil => exact ⟨g, hg⟩
  | snoc c _ hc ih =>
    obtain ⟨g₁, hg₁⟩ := ih
    obtain ⟨now, hc⟩ := hc
    obtain ⟨g', hg', -⟩ := exec_does (x := x) hg₁ hc
    exact ⟨g', hg'⟩

theorem ProcessRun.clocked {n m : Node} {events : List GateEvent} (hr : ProcessRun x n events m)
    {g : Gate} (hg : n.gate = some g) (hzero : g.lastClock = 0) :
    ∀ g', m.gate = some g' → g'.failed = false → g'.Clocked events := by
  induction hr with
  | nil =>
    intro g' hg' _
    obtain rfl := Option.some.inj (hg.symm.trans hg')
    exact ⟨by simp, .inl hzero⟩
  | @snoc events s c hr hc ih =>
    intro g' hg' hopen
    obtain ⟨now, hc⟩ := hc
    obtain ⟨g₁, hg₁⟩ := ProcessRun.gate hr hg
    obtain ⟨g₂, hg₂, hdoes⟩ := exec_does (x := x) hg₁ hc
    obtain rfl := Option.some.inj (hg₂.symm.trans hg')
    obtain ⟨hopen₁, hmono, hnow, hlast⟩ := hdoes.lastClock hc hopen
    obtain ⟨hall, htop⟩ := ih g₁ hg₁ hopen₁
    constructor
    · intro e he t ht
      rcases List.mem_append.mp he with he | he
      · exact (hall e he t ht).trans hmono
      · obtain rfl := List.mem_singleton.mp he
        obtain rfl := Option.some.inj (hc.symm.trans ht)
        exact hnow
    · rcases hlast with hlast | hlast
      · rw [hlast]
        refine htop.imp id fun htop => ?_
        obtain ⟨e, he, ht⟩ := htop
        exact ⟨e, List.mem_append_left _ he, ht⟩
      · rw [hlast]
        exact .inr ⟨_, List.mem_append_right _ (List.mem_singleton_self _), hc⟩

theorem ProcessRun.held {n m : Node} {events : List GateEvent} {mark : ℤ}
    (hr : ProcessRun x n events m) {g : Gate} (hg : n.gate = some g) (hh : g.Held mark)
    (hnone : ∀ e ∈ events, ¬ Releases x mark e) : ∃ g', m.gate = some g' ∧ g'.Held mark := by
  induction hr with
  | nil => exact ⟨g, hg, hh⟩
  | @snoc events s c _ hc ih =>
    obtain ⟨g₁, hg₁, hh₁⟩ := ih fun e he => hnone e (List.mem_append_left _ he)
    obtain ⟨now, hc⟩ := hc
    obtain ⟨g', hg', hdoes⟩ := exec_does (x := x) hg₁ hc
    refine ⟨g', hg', ?_⟩
    rcases hdoes.held hh₁ with hh' | ⟨raw, now, t, hin, hout, hv, hgen, hmark⟩
    · exact hh'
    · refine absurd ?_ (hnone (eventOf (exec x) s c) (by simp))
      exact ⟨g₁, raw, now, t, hg₁, hin, hout, hv, hgen, hmark⟩

theorem openGate_lastClock {p : Params} {stored : Option Bytes} {load : Load} {g : Gate}
    (h : (openGate x p stored load).2 = some g) : g.lastClock = 0 := by
  have hopens := openGate_opens (x := x) p stored load
  rw [h] at hopens
  generalize (openGate x p stored load).1 = a at hopens
  cases hopens with
  | latched | cold | restored => rfl

/-- Once a call has sampled a time below the high-water mark, which is the greatest
time sampled before it, nothing is served until a publication is accepted that is
newer than the gate's snapshot and was issued at or after the mark. -/
theorem quarantine_lasts_until_newer_publication (x : Platform) {p : Params}
    {stored : Option Bytes} {load : Load} {g₀ : Gate}
    (hopen : (openGate x p stored load).2 = some g₀) {events : List GateEvent} {n : Node}
    (hr : ProcessRun x ⟨some g₀, stored⟩ events n) {h₁ h₂ h₃ : List GateEvent} {e e' : GateEvent}
    (heq : events = h₁ ++ e :: (h₂ ++ e' :: h₃)) {g : Gate} (hg : e.before.gate = some g) {t : ℤ}
    (ht : e.input.time = some t) (hback : t < g.lastClock) {s : Snapshot}
    (hs : e'.output = .served s) :
    (∀ e₀ ∈ h₁, ∀ t₀, e₀.input.time = some t₀ → t₀ ≤ g.lastClock) ∧
    (g.lastClock = 0 ∨ ∃ e₀ ∈ h₁, e₀.input.time = some g.lastClock) ∧
    ∃ a ∈ h₂, ∃ g₁ raw now s₁, a.before.gate = some g₁ ∧ a.input = .apply raw now .done ∧
      a.output = .done ∧ verify x g₁.params raw = some s₁ ∧
        g₁.current.generation < s₁.generation ∧ g.lastClock ≤ s₁.issuedAt := by
  rw [heq] at hr
  obtain ⟨m, hfirst, hrest⟩ := hr.of_append
  obtain ⟨-, he, hrest⟩ := hrest.of_cons
  obtain ⟨m', hmid, hlast⟩ := hrest.of_append
  obtain ⟨htime', he', -⟩ := hlast.of_cons
  obtain rfl : e.before = m := by rw [he]; rfl
  obtain ⟨g', hg', hdoes⟩ := exec_does (x := x) hg ht
  have hafter : e.after.gate = some g' := by
    rw [he]
    exact hg'
  -- a gate that was latched at `e` would have served nothing at `e'`
  have hopen_e : g.failed = false := by
    by_contra hf
    have hlatched : e.after.Latched := fun g₁ hg₁ => by
      rw [← Option.some.inj (hafter.symm.trans hg₁)]
      exact hdoes.failed_of (by simpa using hf)
    have hkept : ∀ r ∈ h₂, ∃ now, r.input.time = some now := fun r hr₂ => by
      obtain ⟨_, _, -, -, hnow, -⟩ := hmid.split hr₂
      exact hnow
    rw [he'] at hs
    exact (latched_of_run hmid hlatched hkept).not_served hs
  obtain ⟨hall, htop⟩ := ProcessRun.clocked hfirst rfl (openGate_lastClock hopen) g hg hopen_e
  refine ⟨hall, htop, ?_⟩
  by_contra hnone
  push Not at hnone
  obtain ⟨g₁, hg₁, hh₁⟩ := ProcessRun.held hmid hafter (hdoes.held_of_lt ht hback)
    (fun a ha hrel => by
      obtain ⟨g₁, raw, now, s₁, h₁, h₂, h₃, h₄, h₅, h₆⟩ := hrel
      exact absurd h₆ (Int.not_le.mpr (hnone a ha g₁ raw now s₁ h₁ h₂ h₃ h₄ h₅)))
  rw [he'] at hs
  obtain ⟨now', htime'⟩ := htime'
  obtain ⟨g₂, hg₂, hdoes'⟩ := exec_does (x := x) hg₁ htime'
  rw [show (exec x m' e'.input).1 = .served s from hs] at hdoes'
  exact hh₁.not_served hdoes'

section Sample

def rollbackCalls : List Call :=
  [.apply (sampleRaw 1 10) 20 .done, .current 30, .current 25, .current 31,
    .apply (sampleRaw 1 10) 32 .done, .apply (sampleRaw 2 28) 33 .done,
    .apply (sampleRaw 3 30) 34 .done, .current 35]

def openedNode : Node := ⟨some { params := sampleParams }, none⟩

def rollbackEvents : List GateEvent := eventsOf (exec samplePlatform) openedNode rollbackCalls

/-- Waiting, the old envelope and an envelope from before the mark do not end the
quarantine that the third call begins; the seventh call ends it. -/
theorem rollbackCalls_quarantined :
    (rollbackEvents.map fun e => match e.output with
        | .refused _ => false
        | _ => true) = [true, true, false, false, false, false, true, true] ∧
      ∃ a ∈ (rollbackEvents.drop 3).take 4, ∃ g₁ raw now s₁, a.before.gate = some g₁ ∧
        a.input = .apply raw now .done ∧ a.output = .done ∧
        verify samplePlatform g₁.params raw = some s₁ ∧
          g₁.current.generation < s₁.generation ∧ (30 : ℤ) ≤ s₁.issuedAt := by
  refine ⟨by decide +kernel, ?_⟩
  have hopen : (openGate samplePlatform sampleParams none .done).2 =
      some { params := sampleParams } := by
    unfold openGate
    rw [if_neg (not_not.mpr (by decide +kernel))]
  have hr : ProcessRun samplePlatform openedNode rollbackEvents
      (stateAfter (exec samplePlatform) openedNode rollbackCalls) := by
    apply run_of_inputs
    intro c hc _
    simp only [rollbackCalls, List.mem_cons, List.not_mem_nil, or_false] at hc
    rcases hc with rfl | rfl | rfl | rfl | rfl | rfl | rfl | rfl <;> exact ⟨_, rfl⟩
  have heq : rollbackEvents = rollbackEvents.take 2 ++
      eventOf (exec samplePlatform)
        (stateAfter (exec samplePlatform) openedNode (rollbackCalls.take 2)) (.current 25) ::
      ((rollbackEvents.drop 3).take 4 ++
        eventOf (exec samplePlatform)
          (stateAfter (exec samplePlatform) openedNode (rollbackCalls.take 7)) (.current 35) ::
        []) := rfl
  have hclock : (stateAfter (exec samplePlatform) openedNode (rollbackCalls.take 2)).gate.map
      Gate.lastClock = some 30 := by decide +kernel
  obtain ⟨g, hg, hlast⟩ := Option.map_eq_some_iff.mp hclock
  have hserved : (exec samplePlatform
      (stateAfter (exec samplePlatform) openedNode (rollbackCalls.take 7)) (.current 35)).1 =
        .served ⟨1, "site", 3, 0, 30, 250, "key", [123, 125]⟩ := by decide +kernel
  have h := quarantine_lasts_until_newer_publication samplePlatform hopen hr heq hg rfl
    (by rw [hlast]; decide) hserved
  rw [hlast] at h
  exact h.2.2

end Sample

end WaitingRoom.Trust
