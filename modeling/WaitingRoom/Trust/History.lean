import WaitingRoom.Trust.Snapshot

/-!
# Histories of the configuration gate

What one call can do to a gate and its store is said once, in `Gate.Does`. Across
restarts the store carries what has been served: every snapshot served so far is
behind the stored one, and a gate that is not latched closed stands at the stored
one. Within one process a rollback of the clock closes the gate until a publication
that is newer than both the snapshot and the clock it had.
-/

namespace WaitingRoom.Trust

set_option autoImplicit false

variable {x : Platform}

structure Verified (x : Platform) (p : Params) (raw : Bytes) (out : Envelope) (s : Snapshot) :
    Prop where
  size : 0 < raw.length ∧ raw.length ≤ maxSnapshotBytes
  decoded : read x raw = some (out, s)
  structural : s.Structural x
  installation : s.installation = p.installation
  minimum : p.minimum ≤ s.generation
  signature : p.Verifies x out s = true
  valid : p.validate s.payload = true

variable {p : Params} {raw : Bytes} {s : Snapshot} {g : Gate} {now : ℤ} {n : Node} {c : Call}
  {events : List GateEvent}

theorem verify_eq_some :
    verify x p raw = some s ↔ ∃ out, Verified x p raw out s := by
  constructor
  · intro h
    unfold verify at h
    split at h
    · cases h
    · rename_i hsize
      split at h
      · cases h
      · rename_i out t hread
        split at h
        · cases h
        · rename_i hfields
          split at h
          · cases h
          · rename_i hsig
            split at h
            · cases h
            · rename_i hvalid
              obtain rfl := Option.some.inj h
              push Not at hsize hfields hsig hvalid
              exact ⟨out, ⟨Nat.pos_of_ne_zero hsize.1, hsize.2⟩, hread, hfields.1, hfields.2.1,
                hfields.2.2, hsig, hvalid⟩
  · intro h
    obtain ⟨out, h⟩ := h
    have hsize : ¬ (raw.length = 0 ∨ maxSnapshotBytes < raw.length) := by
      have := h.size
      omega
    have hfields : ¬ (¬ s.Structural x ∨ s.installation ≠ p.installation ∨
        s.generation < p.minimum) := by
      push Not
      exact ⟨h.structural, h.installation, h.minimum⟩
    unfold verify
    rw [if_neg hsize, h.decoded]
    dsimp only
    rw [if_neg hfields, if_neg (not_not.mpr h.signature), if_neg (not_not.mpr h.valid)]

theorem Verified.unique {p q : Params} {out out' : Envelope} {s t : Snapshot}
    (h : Verified x p raw out s) (h' : Verified x q raw out' t) : s = t := by
  have := h.decoded.symm.trans h'.decoded
  exact (Prod.mk.inj (Option.some.inj this)).2

theorem Verified.key {out : Envelope} (h : Verified x p raw out s) :
    ∃ key sig, p.keys.get s.kid = some key ∧ x.encodeSnapshot s = some out.snapshot ∧
      x.verify key (domain ++ out.snapshot) sig = true := by
  have hs := h.signature
  unfold Params.Verifies at hs
  cases hsig : x.decodeBase64 out.signature with
  | none => simp [hsig] at hs
  | some sig =>
    rw [hsig] at hs
    simp only [Bool.and_eq_true, decide_eq_true_eq] at hs
    obtain ⟨⟨hlen, -⟩, hverify⟩ := hs
    cases hkey : p.keys.get s.kid with
    | none => simp [hkey, publicKeySize] at hlen
    | some key =>
      rw [hkey] at hverify
      refine ⟨key, sig, rfl, ?_, hverify⟩
      have hr := h.decoded
      unfold read at hr
      split at hr
      · cases hr
      · split at hr
        · cases hr
        · rename_i hread
          obtain ⟨rfl, rfl⟩ := Prod.mk.inj (Option.some.inj hr)
          exact (strict_eq_some.mp hread).2

def Call.time : Call → Option ℤ
  | .reopen .. => none
  | .apply _ now _ => some now
  | .current now => some now

/-- A snapshot that `applyLocked` brings to the store. -/
structure Gate.Fresh (x : Platform) (g : Gate) (raw : Bytes) (s : Snapshot) (now : ℤ) : Prop where
  verified : verify x g.params raw = some s
  valid : s.issuedAt ≤ now ∧ now < s.expiresAt
  generation : g.current.generation < s.generation
  revision : g.current.revision ≤ s.revision
  issued : g.clockHold = true → g.recoveryAfter ≤ s.issuedAt

def Gate.at (g : Gate) (now : ℤ) : Gate := { g with lastClock := now }

inductive Gate.Does (x : Platform) (g : Gate) (stored : Option Bytes) :
    Call → Answer → Gate → Option Bytes → Prop
  | latched {c : Call} {now : ℤ} : c.time = some now → g.failed = true →
      Does x g stored c (.refused .unavailable) g stored
  | wentBack {c : Call} {now : ℤ} : c.time = some now → g.failed = false → now < g.lastClock →
      Does x g stored c (.refused .unavailable)
        { g with
          clockHold := true, recoveryAfter := g.lastClock, failureReason := some .clockRollback }
        stored
  | refused {c : Call} {now : ℤ} {e : Error} : c.time = some now → g.failed = false →
      g.lastClock ≤ now → e ≠ .persistence → Does x g stored c (.refused e) (g.at now) stored
  | repeated {now : ℤ} {save : Save} {s : Snapshot} : g.failed = false → g.lastClock ≤ now →
      verify x g.params g.raw = some s → g.clockHold = false →
      Does x g stored (.apply g.raw now save) .done (g.at now) stored
  | accepted {raw : Bytes} {now : ℤ} {s : Snapshot} : g.failed = false → g.lastClock ≤ now →
      g.Fresh x raw s now →
      Does x g stored (.apply raw now .done) .done
        { g.at now with
          current := s, raw := raw, clockHold := false, recoveryAfter := 0, failureReason := none }
        (some raw)
  | lost {raw : Bytes} {now : ℤ} {save : Save} {s : Snapshot} {stored' : Option Bytes} :
      g.failed = false → g.lastClock ≤ now → g.Fresh x raw s now →
      stored' = stored ∨ stored' = some raw →
      Does x g stored (.apply raw now save) (.refused .persistence)
        { g.at now with failed := true, failureReason := some .persistence } stored'
  | served {now : ℤ} : g.failed = false → g.lastClock ≤ now → g.clockHold = false →
      0 < g.current.generation → g.current.issuedAt ≤ now ∧ now < g.current.expiresAt →
      Does x g stored (.current now) (.served g.current) (g.at now) stored

theorem Gate.clock_of_lt (h : now < g.lastClock) :
    g.clock now = (false, { g with
      clockHold := true, recoveryAfter := g.lastClock, failureReason := some .clockRollback }) :=
  if_pos h

theorem Gate.clock_of_le (h : g.lastClock ≤ now) :
    g.clock now = (true, g.at now) := if_neg (Int.not_lt.mpr h)

theorem applyLocked_does (g : Gate) (stored : Option Bytes) (raw : Bytes) (now : ℤ) (save : Save) :
    g.Does x stored (.apply raw now save) (applyLocked x g stored raw now save).1
      (applyLocked x g stored raw now save).2.1 (applyLocked x g stored raw now save).2.2 := by
  unfold applyLocked
  by_cases hf : g.failed = true
  · rw [if_pos hf]
    exact .latched rfl hf
  · rw [if_neg hf]
    have hopen : g.failed = false := by simpa using hf
    by_cases hlt : now < g.lastClock
    · rw [Gate.clock_of_lt hlt]
      exact .wentBack rfl hopen hlt
    · have hle := Int.not_lt.mp hlt
      rw [Gate.clock_of_le hle]
      dsimp only
      have hparams : (g.at now).params = g.params := rfl
      rw [hparams]
      cases hv : verify x g.params raw with
      | none => exact .refused rfl hopen hle (by simp)
      | some s =>
        dsimp only
        unfold Gate.judge
        by_cases hvalid : now < s.issuedAt ∨ s.expiresAt ≤ now
        · rw [if_pos hvalid]
          exact .refused rfl hopen hle (by simp)
        rw [if_neg hvalid]
        push Not at hvalid
        by_cases hback : s.generation < (g.at now).current.generation ∨
            s.revision < (g.at now).current.revision
        · rw [if_pos hback]
          exact .refused rfl hopen hle (by simp)
        rw [if_neg hback]
        by_cases hheld : (g.at now).clockHold = true ∧
            (s.generation ≤ (g.at now).current.generation ∨
              s.issuedAt < (g.at now).recoveryAfter)
        · rw [if_pos hheld]
          exact .refused rfl hopen hle (by simp)
        rw [if_neg hheld]
        by_cases hsame : s.generation = (g.at now).current.generation
        · rw [if_pos hsame]
          by_cases hraw : raw = (g.at now).raw
          · rw [if_pos hraw]
            obtain rfl : raw = g.raw := hraw
            refine .repeated hopen hle hv (Bool.eq_false_iff.mpr fun hhold => hheld ⟨hhold, ?_⟩)
            exact .inl hsame.le
          · rw [if_neg hraw]
            exact .refused rfl hopen hle (by simp)
        rw [if_neg hsame]
        push Not at hback hheld
        have hfresh : g.Fresh x raw s now :=
          ⟨hv, hvalid, Nat.lt_of_le_of_ne hback.1 (Ne.symm hsame), hback.2,
            fun hhold => (hheld hhold).2⟩
        cases save with
        | done => exact .accepted hopen hle hfresh
        | failed => exact .lost hopen hle hfresh (.inl rfl)
        | replaced => exact .lost hopen hle hfresh (.inr rfl)

theorem currentLocked_does (g : Gate) (stored : Option Bytes) (now : ℤ) :
    g.Does x stored (.current now) (currentLocked g now).1 (currentLocked g now).2 stored := by
  unfold currentLocked
  by_cases hf : g.failed = true
  · rw [if_pos hf]
    exact .latched rfl hf
  · rw [if_neg hf]
    have hopen : g.failed = false := by simpa using hf
    by_cases hlt : now < g.lastClock
    · rw [Gate.clock_of_lt hlt]
      exact .wentBack rfl hopen hlt
    · have hle := Int.not_lt.mp hlt
      rw [Gate.clock_of_le hle]
      dsimp only
      by_cases hclosed : (g.at now).clockHold = true ∨ (g.at now).current.generation = 0 ∨
          now < (g.at now).current.issuedAt ∨ (g.at now).current.expiresAt ≤ now
      · rw [if_pos hclosed]
        exact .refused rfl hopen hle (by simp)
      · rw [if_neg hclosed]
        push Not at hclosed
        exact .served hopen hle (Bool.eq_false_iff.mpr hclosed.1)
          (Nat.pos_of_ne_zero hclosed.2.1) hclosed.2.2

theorem exec_does (hg : n.gate = some g) (hc : c.time = some now) :
    ∃ g', (exec x n c).2.gate = some g' ∧
      g.Does x n.stored c (exec x n c).1 g' (exec x n c).2.stored := by
  cases c with
  | reopen => cases hc
  | apply raw now save =>
    simp only [exec, hg]
    exact ⟨_, rfl, applyLocked_does g n.stored raw now save⟩
  | current now =>
    simp only [exec, hg]
    exact ⟨_, rfl, currentLocked_does g n.stored now⟩

theorem exec_of_no_gate (hg : n.gate = none) (hc : c.time = some now) :
    exec x n c = (.refused .unavailable, n) := by
  cases c with
  | reopen => cases hc
  | apply => simp only [exec, hg]
  | current => simp only [exec, hg]

inductive Opens (x : Platform) (p : Params) (stored : Option Bytes) :
    Answer → Option Gate → Prop
  | rejected : Opens x p stored (.refused .invalid) none
  | latched {e : Error} {r : Reason} :
      Opens x p stored (.refused e) (some { params := p, failed := true, failureReason := some r })
  | cold : stored = none → Opens x p stored .done (some { params := p })
  | restored {raw : Bytes} {s : Snapshot} : stored = some raw → verify x p raw = some s →
      Opens x p stored .done (some { params := p, current := s, raw := raw })

theorem openGate_opens (p : Params) (stored : Option Bytes) (load : Load) :
    Opens x p stored (openGate x p stored load).1 (openGate x p stored load).2 := by
  unfold openGate
  by_cases hp : ¬ p.Accepted
  · rw [if_pos hp]
    exact .rejected
  · rw [if_neg hp]
    cases load with
    | failed => exact .latched
    | done =>
      cases hs : stored with
      | none => exact .cold rfl
      | some raw =>
        dsimp only
        cases hv : verify x p raw with
        | none => exact .latched
        | some s => exact .restored rfl hv

theorem time_of_served (hs : (exec x n c).1 = .served s) :
    ∃ now, c.time = some now := by
  cases c with
  | apply raw now save => exact ⟨now, rfl⟩
  | current now => exact ⟨now, rfl⟩
  | reopen p load =>
    have hopens := openGate_opens (x := x) p n.stored load
    rw [show (openGate x p n.stored load).1 = .served s from hs] at hopens
    cases hopens

section Store

/-- `s`, read from `raw`, is not ahead of `t`, read from `b`. -/
structure Behind (s : Snapshot) (raw : Bytes) (t : Snapshot) (b : Bytes) : Prop where
  generation : s.generation ≤ t.generation
  revision : s.revision ≤ t.revision
  same : s.generation = t.generation → raw = b ∧ s = t

theorem Behind.refl (s : Snapshot) (raw : Bytes) : Behind s raw s raw :=
  ⟨Nat.le_refl _, Nat.le_refl _, fun _ => ⟨rfl, rfl⟩⟩

theorem Behind.newer {s t u : Snapshot} {raw b c : Bytes} (h : Behind s raw t b)
    (hg : t.generation < u.generation) (hr : t.revision ≤ u.revision) : Behind s raw u c := by
  have h₁ := h.generation
  have h₂ := h.revision
  exact ⟨by omega, by omega, fun heq => by omega⟩

def Gate.Backed (x : Platform) (g : Gate) (stored : Option Bytes) : Prop :=
  stored = none ∧ g.current.generation = 0 ∨
    stored = some g.raw ∧ verify x g.params g.raw = some g.current

def Reached (x : Platform) (stored : Option Bytes) (s : Snapshot) (raw : Bytes) : Prop :=
  ∃ b t p, stored = some b ∧ verify x p b = some t ∧ Behind s raw t b

def Serves (e : GateEvent) (s : Snapshot) (raw : Bytes) : Prop :=
  e.output = .served s ∧ ∃ g, e.before.gate = some g ∧ g.raw = raw

structure Carried (x : Platform) (events : List GateEvent) (n : Node) : Prop where
  served : ∀ e ∈ events, ∀ s raw, Serves e s raw → Reached x n.stored s raw
  backed : ∀ g, n.gate = some g → g.failed = false → g.Backed x n.stored

variable {g g' : Gate} {stored stored' : Option Bytes} {c : Call} {s : Snapshot} {raw : Bytes}
  {n : Node}

theorem Gate.Backed.of_served (h : g.Backed x stored) (hpos : 0 < g.current.generation) :
    stored = some g.raw ∧ verify x g.params g.raw = some g.current := by
  rcases h with ⟨-, hzero⟩ | h
  · omega
  · exact h

theorem Gate.Does.reached (h : g.Does x stored c (.served s) g' stored')
    (hb : g.failed = false → g.Backed x stored) :
    s = g.current ∧ stored = some g.raw ∧ stored' = stored ∧
      verify x g.params g.raw = some g.current := by
  cases h with
  | served hopen _ _ hpos _ =>
    obtain ⟨hstored, hv⟩ := (hb hopen).of_served hpos
    exact ⟨rfl, hstored, rfl, hv⟩

theorem Gate.Does.keeps_reached {a : Answer} (h : g.Does x stored c a g' stored')
    (hb : g.failed = false → g.Backed x stored) (hs : Reached x stored s raw) :
    Reached x stored' s raw := by
  have fresh : ∀ {r t now}, g.failed = false → g.Fresh x r t now → Reached x (some r) s raw := by
    intro r t now hopen hfresh
    obtain ⟨b, u, p, hstored, hu, hbehind⟩ := hs
    rcases hb hopen with ⟨hnone, -⟩ | ⟨hsome, hv⟩
    · cases hstored.symm.trans hnone
    · obtain rfl := Option.some.inj (hstored.symm.trans hsome)
      obtain ⟨out, hu⟩ := verify_eq_some.mp hu
      obtain ⟨out', hv⟩ := verify_eq_some.mp hv
      obtain rfl := hu.unique hv
      exact ⟨r, t, g.params, rfl, hfresh.verified, hbehind.newer hfresh.generation hfresh.revision⟩
  cases h with
  | latched | wentBack | refused | repeated | served => exact hs
  | accepted hopen _ hfresh => exact fresh hopen hfresh
  | lost hopen _ hfresh hstored =>
    rcases hstored with rfl | rfl
    · exact hs
    · exact fresh hopen hfresh

theorem Gate.Does.keeps_backed {a : Answer} (h : g.Does x stored c a g' stored')
    (hb : g.failed = false → g.Backed x stored) (hopen : g'.failed = false) :
    g'.Backed x stored' := by
  cases h with
  | latched | wentBack | refused | repeated | served => exact hb hopen
  | accepted _ _ hfresh => exact .inr ⟨rfl, hfresh.verified⟩
  | lost => cases hopen

theorem carried_snoc {events : List GateEvent} (h : Carried x events n) (c : Call) :
    Carried x (events ++ [eventOf (exec x) n c]) (exec x n c).2 := by
  have step : ∀ {m : Node}, (exec x n c).2 = m →
      (∀ s raw, Reached x n.stored s raw → Reached x m.stored s raw) →
      (∀ s raw, Serves (eventOf (exec x) n c) s raw → Reached x m.stored s raw) →
      (∀ g, m.gate = some g → g.failed = false → g.Backed x m.stored) →
      Carried x (events ++ [eventOf (exec x) n c]) m := by
    intro m _ hold hnew hbacked
    refine ⟨fun e he s raw hs => ?_, hbacked⟩
    rcases List.mem_append.mp he with he | he
    · exact hold s raw (h.served e he s raw hs)
    · obtain rfl := List.mem_singleton.mp he
      exact hnew s raw hs
  cases hc : c.time with
  | none =>
    cases c with
    | apply | current => cases hc
    | reopen p load =>
      have hopens := openGate_opens (x := x) p n.stored load
      refine step rfl (fun _ _ hs => hs) (fun s raw hs => ?_) (fun g hg hopen => ?_)
      · obtain ⟨now, hnow⟩ := time_of_served hs.1
        cases hnow
      · have hgate : (openGate x p n.stored load).2 = some g := hg
        rw [hgate] at hopens
        generalize (openGate x p n.stored load).1 = a at hopens
        change g.Backed x n.stored
        cases hopens with
        | latched => cases hopen
        | cold hnone => exact .inl ⟨hnone, rfl⟩
        | restored hstored hv => exact .inr ⟨hstored, hv⟩
  | some now =>
    cases hg : n.gate with
    | none =>
      have hexec := exec_of_no_gate (x := x) hg hc
      refine step rfl ?_ ?_ ?_
      · rw [hexec]
        exact fun _ _ hs => hs
      · intro s raw hs
        have := hs.1
        simp [eventOf, hexec] at this
      · rw [hexec]
        exact h.backed
    | some g =>
      obtain ⟨g', hg', hdoes⟩ := exec_does (x := x) hg hc
      have hb := h.backed g hg
      refine step rfl (fun _ _ => hdoes.keeps_reached hb) (fun s raw hs => ?_) (fun g₁ hg₁ hopen => ?_)
      · obtain ⟨hout, g₀, hg₀, rfl⟩ := hs
        obtain rfl := Option.some.inj (hg.symm.trans hg₀)
        have hserved : g.Does x n.stored c (.served s) g' (exec x n c).2.stored := hout ▸ hdoes
        obtain ⟨rfl, hstored, hsame, hv⟩ := hserved.reached hb
        exact ⟨g.raw, g.current, g.params, hsame.trans hstored, hv, .refl _ _⟩
      · obtain rfl := Option.some.inj (hg'.symm.trans hg₁)
        exact hdoes.keeps_backed hb hopen

theorem carried_of_run {events : List GateEvent} (hr : GateRun x stored events n) :
    Carried x events n := by
  induction hr with
  | nil => exact ⟨by simp, by simp⟩
  | snoc c _ _ ih => exact carried_snoc ih c

theorem reopened_generation {p : Params} {load : Load} (hs : Reached x n.stored s raw)
    (hdone : (exec x n (.reopen p load)).1 = .done) :
    ∃ g, (exec x n (.reopen p load)).2.gate = some g ∧ s.generation ≤ g.current.generation := by
  have hopens := openGate_opens (x := x) p n.stored load
  change ∃ g, (openGate x p n.stored load).2 = some g ∧ _
  rw [show (openGate x p n.stored load).1 = .done from hdone] at hopens
  generalize (openGate x p n.stored load).2 = gate at hopens ⊢
  obtain ⟨b, t, q, hstored, ht, hbehind⟩ := hs
  cases hopens with
  | cold hnone => cases hstored.symm.trans hnone
  | restored hsome hv =>
    obtain rfl := Option.some.inj (hstored.symm.trans hsome)
    obtain ⟨out, ht⟩ := verify_eq_some.mp ht
    obtain ⟨out', hv⟩ := verify_eq_some.mp hv
    obtain rfl := ht.unique hv
    exact ⟨_, rfl, hbehind.generation⟩

end Store

section Latch

def Node.Latched (n : Node) : Prop := ∀ g, n.gate = some g → g.failed = true

theorem latched_of_persistence {n : Node} {c : Call}
    (h : (exec x n c).1 = .refused .persistence) : (exec x n c).2.Latched := by
  intro g₁ hg₁
  cases hc : c.time with
  | none =>
    cases c with
    | apply | current => cases hc
    | reopen p load =>
      have hopens := openGate_opens (x := x) p n.stored load
      rw [show (openGate x p n.stored load).1 = .refused .persistence from h,
        show (openGate x p n.stored load).2 = some g₁ from hg₁] at hopens
      cases hopens
      rfl
  | some now =>
    cases hg : n.gate with
    | none =>
      rw [exec_of_no_gate (x := x) hg hc] at h
      cases h
    | some g =>
      obtain ⟨g', hg', hdoes⟩ := exec_does (x := x) hg hc
      obtain rfl := Option.some.inj (hg'.symm.trans hg₁)
      rw [h] at hdoes
      generalize (exec x n c).2.stored = stored' at hdoes
      cases hdoes with
      | refused _ _ _ hne => exact absurd rfl hne
      | lost => rfl

theorem Node.Latched.exec {n : Node} {c : Call} {now : ℤ} (h : n.Latched)
    (hc : c.time = some now) :
    (exec x n c).1 = .refused .unavailable ∧ (Trust.exec x n c).2.Latched := by
  cases hg : n.gate with
  | none =>
    rw [exec_of_no_gate (x := x) hg hc]
    exact ⟨rfl, h⟩
  | some g =>
    obtain ⟨g', hg', hdoes⟩ := exec_does (x := x) hg hc
    have hf := h g hg
    generalize (Trust.exec x n c).1 = a at hdoes ⊢
    generalize (Trust.exec x n c).2 = m at hdoes hg' ⊢
    generalize m.stored = stored' at hdoes
    cases hdoes with
    | latched => exact ⟨rfl, fun g₁ hg₁ => by rw [← Option.some.inj (hg'.symm.trans hg₁)]; exact hf⟩
    | wentBack _ hopen | refused _ hopen | repeated hopen | accepted hopen | lost hopen
    | served hopen => simp [hf] at hopen

theorem Node.Latched.not_served {n : Node} {c : Call} {s : Snapshot} (h : n.Latched) :
    (Trust.exec x n c).1 ≠ .served s := by
  intro hs
  obtain ⟨now, hc⟩ := time_of_served hs
  rw [(h.exec hc).1] at hs
  cases hs

theorem latched_of_run {Allowed : Node → Call → Prop} {n m : Node} {events : List GateEvent}
    (hr : Run (exec x) Allowed n events m) (h : n.Latched)
    (hkept : ∀ e ∈ events, ∃ now, e.input.time = some now) : m.Latched := by
  induction hr with
  | nil => exact h
  | @snoc events s c _ _ ih =>
    have hs := ih fun e he => hkept e (List.mem_append_left _ he)
    obtain ⟨now, hnow⟩ := hkept (eventOf (exec x) s c) (by simp)
    exact (hs.exec hnow).2

end Latch

/-- The call of an event with an answer other than `persistence` keeps the snapshot
and the store, if it was refused. -/
theorem refused_unchanged {e : Error} (hc : c.time = some now) (h : (exec x n c).1 = .refused e)
    (hne : e ≠ .persistence) :
    (exec x n c).2.stored = n.stored ∧
      ((exec x n c).2.gate.map fun g => (g.current, g.raw)) =
        n.gate.map fun g => (g.current, g.raw) := by
  cases hg : n.gate with
  | none =>
    rw [exec_of_no_gate (x := x) hg hc]
    exact ⟨rfl, by rw [hg]⟩
  | some g =>
    obtain ⟨g', hg', hdoes⟩ := exec_does (x := x) hg hc
    rw [h] at hdoes
    rw [hg']
    generalize (exec x n c).2.stored = stored' at hdoes ⊢
    cases hdoes with
    | latched | wentBack | refused => exact ⟨rfl, rfl⟩
    | lost => exact absurd rfl hne

theorem served_verified (h : Carried x events n) (hs : (exec x n c).1 = .served s) :
    ∃ g now, n.gate = some g ∧ c = .current now ∧ s = g.current ∧ n.stored = some g.raw ∧
      verify x g.params g.raw = some s ∧ s.issuedAt ≤ now ∧ now < s.expiresAt := by
  obtain ⟨t, hc⟩ := time_of_served hs
  cases hg : n.gate with
  | none =>
    rw [exec_of_no_gate (x := x) hg hc] at hs
    cases hs
  | some g =>
    obtain ⟨g', hg', hdoes⟩ := exec_does (x := x) hg hc
    rw [hs] at hdoes
    obtain ⟨rfl, hstored, -, hv⟩ := hdoes.reached (h.backed g hg)
    generalize (exec x n c).2.stored = stored' at hdoes
    cases hdoes with
    | @served now _ _ _ _ hvalid => exact ⟨g, now, rfl, rfl, rfl, hstored, hv, hvalid⟩

theorem serves_of_output {stored : Option Bytes} (hr : GateRun x stored events n) {e : GateEvent}
    (he : e ∈ events) (hs : e.output = .served s) : ∃ raw, Serves e s raw := by
  obtain ⟨h₁, h₂, -, hr₁, -, heq, -⟩ := hr.split he
  rw [heq] at hs
  obtain ⟨g, -, hg, -⟩ := served_verified (carried_of_run hr₁) hs
  exact ⟨g.raw, by rw [heq]; exact hs, g, hg, rfl⟩

theorem served_behind {stored : Option Bytes} (hr : GateRun x stored events n) {e : GateEvent}
    (he : e ∈ events) {s s' : Snapshot} (hs : Serves e s raw) (hs' : (exec x n c).1 = .served s') :
    ∃ g, n.gate = some g ∧ Behind s raw s' g.raw := by
  have hcarried := carried_of_run hr
  obtain ⟨g, now, hg, -, -, hstored, hv, -⟩ := served_verified hcarried hs'
  obtain ⟨b, t, p, hb, ht, hbehind⟩ := hcarried.served e he s raw hs
  obtain rfl := Option.some.inj (hb.symm.trans hstored)
  obtain ⟨out, ht⟩ := verify_eq_some.mp ht
  obtain ⟨out', hv⟩ := verify_eq_some.mp hv
  obtain rfl := ht.unique hv
  exact ⟨g, hg, hbehind⟩

/-- The gate never rolls back, whatever is sent to it, whenever its process is
restarted and wherever its store fails: generations and revisions of what it serves
only grow and a generation stands for one envelope; a restart stands at or after
what was served; what is served was signed by a trusted key for the installation,
validated and is in force; an uncertain write ends the process as a server; and a
call that fails otherwise changes neither the snapshot nor the store. -/
theorem served_snapshots_never_roll_back (x : Platform) (Signed : Bytes → Bytes → Prop)
    (unforgeable : ∀ key message sig, x.verify key message sig = true → Signed key message)
    {stored : Option Bytes} {events : List GateEvent} {n : Node}
    (hr : GateRun x stored events n) :
    (events.Pairwise fun e e' => ∀ s s', e.output = .served s → e'.output = .served s' →
      s.generation ≤ s'.generation ∧ s.revision ≤ s'.revision ∧
        (s.generation = s'.generation →
          s = s' ∧ e.before.gate.map Gate.raw = e'.before.gate.map Gate.raw)) ∧
    (events.Pairwise fun e e' => ∀ s p load, e.output = .served s →
      e'.input = .reopen p load → e'.output = .done →
        ∃ g, e'.after.gate = some g ∧ s.generation ≤ g.current.generation) ∧
    (∀ e ∈ events, ∀ s, e.output = .served s → ∃ g now, e.before.gate = some g ∧
      e.input = .current now ∧ (s.issuedAt ≤ now ∧ now < s.expiresAt) ∧
        s.installation = g.params.installation ∧ g.params.validate s.payload = true ∧
        ∃ key bytes, g.params.keys.get s.kid = some key ∧ x.encodeSnapshot s = some bytes ∧
          Signed key (domain ++ bytes)) ∧
    (∀ h₁ e h₂ e' h₃ s, events = h₁ ++ e :: (h₂ ++ e' :: h₃) →
      e.output = .refused .persistence → e'.output = .served s →
        ∃ r ∈ h₂, ∃ p load, r.input = .reopen p load) ∧
    (∀ e ∈ events, ∀ raw now save err, e.input = .apply raw now save →
      e.output = .refused err → err ≠ .persistence →
        e.after.stored = e.before.stored ∧
          (e.after.gate.map fun g => (g.current, g.raw)) =
            e.before.gate.map fun g => (g.current, g.raw)) := by
  refine ⟨?_, ?_, ?_, ?_, ?_⟩
  · apply hr.pairwise
    intro h m c hm _ e he s s' hs hs'
    obtain ⟨raw, hserves⟩ := serves_of_output hm he hs
    obtain ⟨g, hg, hbehind⟩ := served_behind hm he hserves hs'
    obtain ⟨-, g₀, hg₀, rfl⟩ := hserves
    refine ⟨hbehind.generation, hbehind.revision, fun heq => ⟨(hbehind.same heq).2, ?_⟩⟩
    change e.before.gate.map Gate.raw = m.gate.map Gate.raw
    rw [hg₀, hg, Option.map_some, Option.map_some, (hbehind.same heq).1]
  · apply hr.pairwise
    intro h m c hm _ e he s p load hs hinput hdone
    obtain ⟨raw, hserves⟩ := serves_of_output hm he hs
    obtain rfl : c = .reopen p load := hinput
    exact reopened_generation ((carried_of_run hm).served e he s raw hserves) hdone
  · intro e he s hs
    obtain ⟨h₁, h₂, -, hr₁, -, heq, -⟩ := hr.split he
    have hs' : (exec x e.before e.input).1 = .served s := by
      rw [heq] at hs
      exact hs
    obtain ⟨g, now, hg, hc, -, -, hv, hvalid⟩ := served_verified (carried_of_run hr₁) hs'
    obtain ⟨out, hv⟩ := verify_eq_some.mp hv
    obtain ⟨key, sig, hkey, hbytes, hsig⟩ := hv.key
    exact ⟨g, now, hg, hc, hvalid, hv.installation, hv.valid, key, out.snapshot, hkey, hbytes,
      unforgeable key _ sig hsig⟩
  · intro h₁ e h₂ e' h₃ s heq hlost hs
    by_contra hnone
    push Not at hnone
    have hkept : ∀ r ∈ h₂, ∃ now, r.input.time = some now := by
      intro r hr₂
      cases hin : r.input with
      | reopen p load => exact absurd hin (hnone r hr₂ p load)
      | apply raw now save => exact ⟨now, rfl⟩
      | current now => exact ⟨now, rfl⟩
    rw [heq] at hr
    obtain ⟨m, -, hrest⟩ := hr.of_append
    obtain ⟨-, he, hrest⟩ := hrest.of_cons
    obtain ⟨m', hmid, hlast⟩ := hrest.of_append
    obtain ⟨-, he', -⟩ := hlast.of_cons
    have hlatched : e.after.Latched := by
      rw [he] at hlost ⊢
      exact latched_of_persistence hlost
    have hclosed := latched_of_run hmid hlatched hkept
    rw [he'] at hs
    exact hclosed.not_served hs
  · intro e he raw now save err hin hout hne
    obtain ⟨h₁, h₂, -, -, -, heq, -⟩ := hr.split he
    have htime : e.input.time = some now := by rw [hin]; rfl
    rw [heq] at hout
    have := refused_unchanged htime hout hne
    rw [heq]
    exact this

section Sample

def samplePlatform : Platform where
  decodeEnvelope := fun raw => some ⟨raw, ""⟩
  encodeEnvelope := fun out => some out.snapshot
  decodeSnapshot
    | generation :: revision :: issuedAt :: expiresAt :: payload =>
      some ⟨1, "site", generation.toNat, revision.toNat, issuedAt.toNat, expiresAt.toNat, "key",
        payload⟩
    | _ => none
  encodeSnapshot := fun s =>
    some (.ofNat s.generation :: .ofNat s.revision :: .ofNat s.issuedAt.toNat ::
      .ofNat s.expiresAt.toNat :: s.payload)
  jsonValid := fun _ => true
  decodeBase64 := fun _ => some []
  encodeBase64 := fun _ => ""
  verify := fun key _ _ => decide (key = List.replicate 32 7)
  sign := fun _ _ => []
  hexSha256 := fun _ => ""

def sampleParams : Params where
  keys := (∅ : Table String Bytes).put "key" (List.replicate 32 7)
  installation := "site"
  minimum := 1
  validate := fun _ => true

/-- An envelope of `samplePlatform` that is valid from `issuedAt` on. -/
def sampleRaw (generation issuedAt : UInt8) : Bytes := [generation, 0, issuedAt, 250, 123, 125]

def sampleCalls : List Call :=
  [.reopen sampleParams .done, .apply (sampleRaw 1 10) 20 .done, .current 21,
    .apply (sampleRaw 2 15) 22 .replaced, .current 23, .reopen sampleParams .done, .current 24]

/-- The uncertain write closes the gate; after the restart it serves what was written. -/
theorem sampleCalls_never_roll_back :
    ((eventsOf (exec samplePlatform) {} sampleCalls).map fun e =>
        match e.output with
        | .served s => some s.generation
        | _ => none) = [none, none, some 1, none, none, none, some 2] ∧
      (eventsOf (exec samplePlatform) {} sampleCalls).Pairwise fun e e' => ∀ s s',
        e.output = .served s → e'.output = .served s' → s.generation ≤ s'.generation := by
  refine ⟨by decide +kernel, ?_⟩
  have hr : GateRun samplePlatform none (eventsOf (exec samplePlatform) {} sampleCalls)
      (stateAfter (exec samplePlatform) {} sampleCalls) := run_of_inputs _ fun _ _ _ => trivial
  have h := served_snapshots_never_roll_back samplePlatform (fun key _ => key = List.replicate 32 7)
    (fun key _ _ h => of_decide_eq_true h) hr
  exact h.1.imp fun h s s' hs hs' => (h s s' hs hs').1

end Sample

end WaitingRoom.Trust
