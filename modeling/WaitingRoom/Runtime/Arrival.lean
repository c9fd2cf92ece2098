import WaitingRoom.Shared.Run
import WaitingRoom.Shared.Window

/-!
# The window of arrivals

A gateway counts the arrivals of a room by the second, for five minutes, and reports
the sum to Control, which ends a drain on it. A clock that goes back empties the
window and starts it anew. The sum is compared with the arrivals themselves: those
that were observed since the clock last went back.
-/

namespace WaitingRoom.Runtime

set_option autoImplicit false

structure ArrivalWindow where
  started : ℤ
  last : ℤ := 0
  ring : Ring 300 := {}

namespace ArrivalWindow

def cap : Nat := 333333

def observe (a : ArrivalWindow) (sec : ℤ) : ArrivalWindow :=
  let a := if sec < a.last then { a with started := sec, ring := {} } else a
  { started := if a.started = 0 then sec else a.started
    last := sec
    ring := a.ring.bump cap sec }

def snapshot (a : ArrivalWindow) (sec : ℤ) : Nat × Bool :=
  if sec < a.last then (0, false)
  else (a.ring.total sec, decide (0 < a.started ∧ 300 ≤ sec - a.started))

inductive Call
  | observe (sec : ℤ)
  | snapshot (sec : ℤ)
deriving DecidableEq

def Call.sec : Call → ℤ
  | .observe sec => sec
  | .snapshot sec => sec

/-- A call answers what `snapshot` returns. -/
def exec (a : ArrivalWindow) : Call → Option (Nat × Bool) × ArrivalWindow
  | .observe sec => (none, a.observe sec)
  | .snapshot sec => (some (a.snapshot sec), a)

abbrev WindowEvent := Event ArrivalWindow Call (Option (Nat × Bool))

/-- The calls on a window that is started at `start`, at any positive times. -/
abbrev WindowRun (start : ℤ) : List WindowEvent → ArrivalWindow → Prop :=
  Run exec (fun _ c => 0 < c.sec) { started := start }

section Arrivals

/-- The clock went back from the latest of `seen`. -/
def WentBack (sec : ℤ) (seen : List ℤ) : Prop := ∃ u ∈ seen.head?, sec < u
  deriving Decidable

/-- The arrivals since the clock went back, of all arrivals, latest first. -/
def recent : List ℤ → List ℤ
  | [] => []
  | sec :: seen => if WentBack sec seen then [sec] else sec :: recent seen

/-- The second at which the clock went back, or the start. -/
def origin (start : ℤ) : List ℤ → ℤ
  | [] => start
  | sec :: seen => if WentBack sec seen then sec else origin start seen

def observed : List WindowEvent → List ℤ
  | [] => []
  | e :: events =>
    match e.input with
    | .observe sec => observed events ++ [sec]
    | .snapshot _ => observed events

theorem observed_append (h h' : List WindowEvent) :
    observed (h ++ h') = observed h' ++ observed h := by
  induction h with
  | nil => simp [observed]
  | cons e h ih =>
    rw [List.cons_append, observed, observed, ih]
    cases e.input <;> simp

theorem recent_append (start : ℤ) (seen : List ℤ) :
    ∃ older, seen = recent seen ++ older ∧
      (older ≠ [] → (recent seen).getLast? = some (origin start seen)) := by
  induction seen with
  | nil => exact ⟨[], rfl, fun h => absurd rfl h⟩
  | cons sec seen ih =>
    rw [recent, origin]
    by_cases hback : WentBack sec seen
    · rw [if_pos hback, if_pos hback]
      exact ⟨seen, rfl, fun _ => rfl⟩
    · rw [if_neg hback, if_neg hback]
      obtain ⟨older, hseen, hlast⟩ := ih
      refine ⟨older, by rw [List.cons_append, ← hseen], fun hne => ?_⟩
      rw [List.getLast?_cons, hlast hne]
      rfl

theorem recent_le (seen : List ℤ) : ∀ u ∈ recent seen, u ≤ seen.headD 0 := by
  induction seen with
  | nil => exact fun u hu => absurd hu List.not_mem_nil
  | cons sec seen ih =>
    intro u hu
    rw [recent] at hu
    rw [List.headD_cons]
    by_cases hback : WentBack sec seen
    · rw [if_pos hback] at hu
      exact (List.mem_singleton.mp hu).le
    · rw [if_neg hback] at hu
      rcases List.mem_cons.mp hu with rfl | hu
      · exact le_rfl
      · have hle := ih u hu
        cases seen with
        | nil => exact absurd hu List.not_mem_nil
        | cons latest rest =>
          refine hle.trans (not_lt.mp fun hlt => hback ⟨latest, rfl, hlt⟩)

end Arrivals

section Invariant

/-- What a window says of the arrivals `seen`. -/
structure Tracks (start : ℤ) (seen : List ℤ) (a : ArrivalWindow) : Prop where
  last : a.last = seen.headD 0
  started : a.started = origin start seen
  positive : 0 < a.started
  ring : a.ring.Tallies cap (recent seen)

variable {start : ℤ} {seen : List ℤ} {a : ArrivalWindow}

theorem tracks_started (hstart : 0 < start) : Tracks start [] { started := start } :=
  ⟨rfl, rfl, hstart, Ring.tallies_empty⟩

theorem Tracks.lt_last_iff (h : Tracks start seen a) {sec : ℤ} (hsec : 0 < sec) :
    sec < a.last ↔ WentBack sec seen := by
  rw [h.last]
  cases seen with
  | nil =>
    constructor
    · intro hlt
      exact absurd hsec (not_lt.mpr hlt.le)
    · rintro ⟨u, hu, -⟩
      cases hu
  | cons latest rest =>
    constructor
    · exact fun hlt => ⟨latest, rfl, hlt⟩
    · rintro ⟨u, hu, hlt⟩
      obtain rfl := Option.some.inj hu
      exact hlt

theorem Tracks.observe (h : Tracks start seen a) {sec : ℤ} (hsec : 0 < sec) :
    Tracks start (sec :: seen) (a.observe sec) := by
  unfold ArrivalWindow.observe
  by_cases hback : WentBack sec seen
  · have hlt := (h.lt_last_iff hsec).mpr hback
    rw [if_pos hlt]
    refine ⟨rfl, ?_, ?_, ?_⟩
    · rw [origin, if_pos hback]
      exact ite_self _
    · dsimp only
      rw [ite_self]
      exact hsec
    · rw [recent, if_pos hback]
      exact Ring.tallies_empty.bump fun u hu => absurd hu List.not_mem_nil
  · have hlt : ¬ sec < a.last := fun hlt => hback ((h.lt_last_iff hsec).mp hlt)
    have hne : a.started ≠ 0 := h.positive.ne'
    rw [if_neg hlt]
    refine ⟨rfl, ?_, ?_, ?_⟩
    · rw [origin, if_neg hback]
      exact (if_neg hne).trans h.started
    · dsimp only
      rw [if_neg hne]
      exact h.positive
    · rw [recent, if_neg hback]
      refine h.ring.bump fun u hu => ?_
      have hle := recent_le seen u hu
      rw [← h.last] at hle
      omega

theorem tracks_of_run (hstart : 0 < start) {events : List WindowEvent}
    (hr : WindowRun start events a) : Tracks start (observed events) a := by
  induction hr with
  | nil => exact tracks_started hstart
  | @snoc events a c hr hc ih =>
    rw [observed_append]
    cases c with
    | observe sec => exact ih.observe hc
    | snapshot sec => exact ih

end Invariant

/-- A snapshot that is not before the last arrival counts, for each of the last 300
seconds, the arrivals since the clock went back, up to the cap. It is ready when 300
seconds have passed since then: what it leaves out, it leaves out by the cap, or it
came before an arrival that is older than the window. -/
theorem snapshot_counts {start : ℤ} (hstart : 0 < start) {events : List WindowEvent}
    {a : ArrivalWindow} (hr : WindowRun start events a) {early late : List WindowEvent}
    {e : WindowEvent} (hsplit : events = early ++ e :: late) {s : ℤ}
    (hcall : e.input = .snapshot s) (hlast : ∀ u ∈ (observed early).head?, u ≤ s) :
    ∃ total ready, e.output = some (total, ready) ∧
      total = ∑ u ∈ Finset.Ioc (s - 300) s, min 333333 ((recent (observed early)).count u) ∧
      total ≤ 100000000 ∧
      (ready = true ↔ 300 ≤ s - origin start (observed early)) ∧
      (ready = true → ∃ older, observed early = recent (observed early) ++ older ∧
        (older ≠ [] → ∃ u, (recent (observed early)).getLast? = some u ∧ u ≤ s - 300) ∧
        ((∀ u, (recent (observed early)).count u ≤ 333333) →
          total = ((recent (observed early)).filter fun u => s - 300 < u).length)) := by
  subst hsplit
  obtain ⟨m, hearly, hrest⟩ := Run.of_append hr
  obtain ⟨hpos, heq, -⟩ := Run.of_cons hrest
  have ht := tracks_of_run hstart hearly
  have houtput : e.output = some (m.snapshot s) := by
    rw [heq, hcall]
    rfl
  have hbefore : ∀ u ∈ recent (observed early), u ≤ s := by
    intro u hu
    refine (recent_le _ u hu).trans ?_
    cases hseen : observed early with
    | nil =>
      rw [hseen] at hu
      exact absurd hu List.not_mem_nil
    | cons latest rest => exact hlast latest (by rw [hseen]; rfl)
  have hopen : ¬ s < m.last := by
    have hsec : 0 < s := by
      rw [hcall] at hpos
      exact hpos
    rw [ht.lt_last_iff hsec]
    rintro ⟨u, hu, hlt⟩
    exact absurd (hlast u hu) (not_le.mpr hlt)
  have htotal := ht.ring.total hbefore
  have hready : decide (0 < m.started ∧ 300 ≤ s - m.started) = true ↔
      300 ≤ s - origin start (observed early) := by
    rw [decide_eq_true_iff, ← ht.started]
    exact ⟨fun h => h.2, fun h => ⟨ht.positive, h⟩⟩
  rw [snapshot, if_neg hopen] at houtput
  refine ⟨_, _, houtput, htotal, ?_, hready, ?_⟩
  · rw [htotal]
    exact (Ring.sum_min_le cap _ s).trans (by decide)
  · intro hset
    obtain ⟨older, hseen, hgone⟩ := recent_append start (observed early)
    refine ⟨older, hseen, fun hne => ⟨_, hgone hne, ?_⟩, fun hfull => ?_⟩
    · have := hready.mp hset
      omega
    · rw [htotal]
      exact Ring.sum_count_eq_length hbefore hfull

def sampleArrivals : List Call := [.observe 1001, .observe 1001]

theorem sampleArrivals_counted :
    (eventOf exec (stateAfter exec { started := 1000 } sampleArrivals) (.snapshot 1300)).output =
      some (2, true) := by
  have hrun : WindowRun 1000 (eventsOf exec { started := 1000 } (sampleArrivals ++ [.snapshot 1300]))
      (stateAfter exec { started := 1000 } (sampleArrivals ++ [.snapshot 1300])) :=
    run_of_inputs _ fun c hc _ =>
      (by decide : ∀ c ∈ sampleArrivals ++ [.snapshot 1300], 0 < c.sec) c hc
  have hobserved : observed (eventsOf exec { started := 1000 } sampleArrivals) = [1001, 1001] := rfl
  obtain ⟨total, ready, houtput, -, -, hready, hcount⟩ :=
    snapshot_counts (by decide) hrun (eventsOf_append exec _ sampleArrivals _) (s := 1300) rfl
      (by rw [hobserved]; decide)
  rw [hobserved] at hready hcount
  obtain rfl : ready = true := hready.mpr (by decide)
  obtain ⟨older, -, -, htotal⟩ := hcount rfl
  have hfew : ∀ u, (recent [1001, 1001]).count u ≤ 333333 :=
    fun u => List.count_le_length.trans (by decide)
  obtain rfl : total = 2 := (htotal hfew).trans (by decide)
  exact houtput

end ArrivalWindow

end WaitingRoom.Runtime
