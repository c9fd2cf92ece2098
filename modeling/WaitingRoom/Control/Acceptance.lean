import WaitingRoom.Control.Seal

/-!
# Publisher and gate

An envelope that Control commits is one that a data node takes: the delivery passes
the validator of the node in the bytes that were signed, generations grow with every
commit and revisions never go back, and an envelope that answers a request for clock
recovery is newer than the snapshot of the node and issued after its clock.
-/

namespace WaitingRoom.Control

set_option autoImplicit false

open Doc
open Trust (Bytes)

section Validator

def validateDelivery (x : Library) (raw : Bytes) : Bool :=
  -- `utf8.Valid`
  if Doc.utf8 (readText raw) ≠ raw then false
  else
    match decodeExact Delivery.ofDoc (readText raw) with
    | none => false
    | some d => decide (d.Valid x ∧ d.bytes = raw)

theorem validateDelivery_bytes {x : Library} {d : Delivery} (hd : d.Valid x)
    (hsize : d.bytes.length ≤ maxConfigBytes) : validateDelivery x d.bytes = true := by
  have htext : readText d.bytes = print compact d.toDoc := readText_utf8 _
  have hread : decodeExact Delivery.ofDoc (print compact d.toDoc) = some d := by
    rw [d.length_bytes] at hsize
    have hpos := size_obj_pos compact d.fields
    rw [decodeExact, textSize_print, if_neg, parse_print]
    · dsimp only
      have h : Delivery.ofDoc (reorder id d.toDoc) = some d :=
        Delivery.ofDoc_reorder (fun _ => .refl _) hd
      rwa [reorder_id] at h
    · rw [Delivery.toDoc] at hsize ⊢
      omega
  have hutf8 : Doc.utf8 (print compact d.toDoc) = d.bytes := rfl
  unfold validateDelivery
  rw [htext, if_neg (not_not.mpr hutf8), hread]
  exact decide_eq_true ⟨hd, rfl⟩

end Validator

section Issue

def Op.signer : Op → Option (Service × ℤ)
  | .publish svc _ _ _ now => some (svc, now)
  | .operate svc _ _ _ _ now => some (svc, now)
  | .changeEvent svc _ _ _ _ _ _ now => some (svc, now)
  | .tick svc now _ => some (svc, now)
  | .refresh svc now => some (svc, now)
  | .recoverClock svc _ now => some (svc, now)
  | .replaceDraft .. => none
  | .acknowledge .. => none

/-- The operation commits the envelope `raw`. -/
structure Issues (e : ControlEvent) (svc : Service) (now : ℤ) (raw : Bytes) : Prop where
  signer : e.input.signer = some (svc, now)
  generation : e.after.generation = e.before.generation + 1
  published : e.after.published = some ⟨raw, svc.kid, now, now + day⟩

def issuedSnapshot (e : ControlEvent) (svc : Service) (now : ℤ) : Trust.Snapshot :=
  snapshotOf svc e.after.delivery e.before.generation now

/-- What `sign` leaves, with what it signed. -/
structure Sealed (h : Host) (s s' : Store) (svc : Service) (now : ℤ) (raw : Bytes) : Prop where
  valid : s'.delivery.Valid h.library
  signed : Trust.sign h.trust svc.key (snapshotOf svc s'.delivery s.generation now) = some raw
  generation : s'.generation = s.generation + 1
  published : s'.published = some ⟨raw, svc.kid, now, now + day⟩

variable {h : Host} {s s' : Store} {op : Op}

theorem sealed_of_sign {svc : Service} {d : Delivery} {now : ℤ} (events : Table String Event)
    (hs : sign h svc { s with events := events } d s.generation now = .ok s') :
    ∃ raw, Sealed h s s' svc now raw := by
  obtain ⟨hd, _, raw, hraw, rfl⟩ := sign_eq_ok hs
  exact ⟨raw, hd, hraw, rfl, rfl⟩

theorem Does.keeps_or_seals (hd : Does h s op s') :
    Keeps s s' ∨ ∃ svc now raw, op.signer = some (svc, now) ∧ Sealed h s s' svc now raw := by
  have issued : ∀ {svc : Service} {d : Delivery} {now : ℤ} {events : Table String Event},
      op.signer = some (svc, now) →
        sign h svc { s with events := events } d s.generation now = .ok s' →
          ∃ svc now raw, op.signer = some (svc, now) ∧ Sealed h s s' svc now raw := by
    intro svc d now events hop hs
    obtain ⟨raw, hraw⟩ := sealed_of_sign _ hs
    exact ⟨svc, now, raw, hop, hraw⟩
  cases hd with
  | nothing | drafted | ticked | acknowledged => exact .inl ⟨rfl, rfl, rfl⟩
  | published keeps next signed => exact .inr (issued rfl signed)
  | epoch signed => exact .inr (issued rfl signed)
  | operated found active applied signed => exact .inr (issued rfl signed)
  | eventChanged roomOf found notClosed asked upserted signed => exact .inr (issued rfl signed)
  | moved rooms signed => exact .inr (issued rfl signed)
  | renewed signed => exact .inr (issued rfl signed)
  | recovered signed => exact .inr (issued rfl signed)

theorem Does.recoverClock_delivery {svc : Service} {request : Trust.ClockRecovery} {now : ℤ}
    (hd : Does h s (.recoverClock svc request now) s') : s'.delivery = s.delivery := by
  cases hd with
  | nothing => rfl
  | recovered signed =>
    obtain ⟨_, _, _, _, rfl⟩ := sign_eq_ok signed
    rfl

end Issue

section Order

variable {h : Host} {s₀ s : Store} {events : List ControlEvent}

theorem issues_of_run (hi : Installed h s₀) (hr : ControlRun h s₀ events s) {e : ControlEvent}
    (he : e ∈ events) : Keeps e.before e.after ∨ ∃ svc now raw, Issues e svc now raw := by
  obtain ⟨h₁, h₂, -, hbefore, -, heq, -⟩ := Run.split hr he
  have hd := exec_does (steady_of_run hi hbefore).toWellformed e.input
  have hafter : e.after = (exec h e.before e.input).2 := congrArg Event.after heq
  rw [← hafter] at hd
  rcases hd.keeps_or_seals with hk | ⟨svc, now, raw, hop, hs⟩
  · exact .inl hk
  · exact .inr ⟨svc, now, raw, hop, hs.generation, hs.published⟩

theorem Issues.sealed (hi : Installed h s₀) (hr : ControlRun h s₀ events s) {e : ControlEvent}
    (he : e ∈ events) {svc : Service} {now : ℤ} {raw : Bytes} (hissues : Issues e svc now raw) :
    Sealed h e.before e.after svc now raw := by
  obtain ⟨h₁, h₂, -, hbefore, -, heq, -⟩ := Run.split hr he
  have hd := exec_does (steady_of_run hi hbefore).toWellformed e.input
  have hafter : e.after = (exec h e.before e.input).2 := congrArg Event.after heq
  rw [← hafter] at hd
  rcases hd.keeps_or_seals with hk | ⟨svc', now', raw', hop, hs⟩
  · have hgeneration := hissues.generation
    rw [hk.generation] at hgeneration
    omega
  · obtain ⟨rfl, rfl⟩ := Prod.mk.inj (Option.some.inj (hissues.signer.symm.trans hop))
    have hraw := congrArg Published.raw (Option.some.inj (hissues.published.symm.trans hs.published))
    dsimp only at hraw
    rw [hraw]
    exact hs

theorem generation_le_of_run (hs : Steady h s₀) (hr : ControlRun h s₀ events s) :
    s₀.generation ≤ s.generation := by
  have hboth : Steady h s ∧ s₀.generation ≤ s.generation := by
    refine Run.invariant hr (I := fun s => Steady h s ∧ s₀.generation ≤ s.generation)
      ⟨hs, Nat.le_refl _⟩ ?_
    intro s op ⟨hsteady, hle⟩ _
    refine ⟨hsteady.step op, hle.trans ?_⟩
    rcases (exec_does hsteady.toWellformed op).keeps_or_commits hsteady.toWellformed with hk | hc
    · rw [hk.generation]
    · rw [hc.generation]
      omega
  exact hboth.2

theorem later_of_run (hi : Installed h s₀) (hr : ControlRun h s₀ events s) {e : ControlEvent}
    (he : e ∈ events) :
    e.after.generation ≤ s.generation ∧
      e.after.delivery.config.revision ≤ s.delivery.config.revision := by
  obtain ⟨h₁, h₂, -, hbefore, -, heq, hrest⟩ := Run.split hr he
  have hs : Steady h e.after := by
    rw [heq]
    exact (steady_of_run hi hbefore).step e.input
  exact ⟨generation_le_of_run hs hrest, (extends_of_run hs hrest).revision⟩

theorem published_of_run (hi : Installed h s₀) (hr : ControlRun h s₀ events s) {p : Published}
    (hp : s.published = some p) :
    ∃ e ∈ events, ∃ svc now, Issues e svc now p.raw ∧ p.issuedAt = now ∧
      e.after.generation = s.generation := by
  induction hr with
  | nil =>
    rw [hi.published] at hp
    cases hp
  | @snoc events s op hr _ ih =>
    have hd := exec_does (steady_of_run hi hr).toWellformed op
    rcases hd.keeps_or_seals with hk | ⟨svc, now, raw, hop, hs⟩
    · rw [hk.published] at hp
      obtain ⟨e, he, svc, now, hissues, hnow, hgeneration⟩ := ih hp
      exact ⟨e, List.mem_append_left _ he, svc, now, hissues, hnow,
        hgeneration.trans hk.generation.symm⟩
    · rw [hs.published] at hp
      obtain rfl := Option.some.inj hp
      exact ⟨eventOf (exec h) s op, List.mem_append_right _ List.mem_cons_self, svc, now,
        ⟨hop, hs.generation, hs.published⟩, rfl, rfl⟩

theorem revision_le_of_generation (hi : Installed h s₀) (hr : ControlRun h s₀ events s)
    {e e' : ControlEvent} (he : e ∈ events) (he' : e' ∈ events) {svc : Service} {now : ℤ}
    {raw : Bytes} (hissues : Issues e svc now raw)
    (hlt : e.after.generation ≤ e'.after.generation) :
    e.after.delivery.config.revision ≤ e'.after.delivery.config.revision := by
  obtain ⟨h₁, h₂, rfl, hbefore, -, heq, hrest⟩ := Run.split hr he
  have hs : Steady h e.after := by
    rw [heq]
    exact (steady_of_run hi hbefore).step e.input
  rcases List.mem_append.mp he' with hbefore' | hafter'
  · have hle := (later_of_run hi hbefore hbefore').1
    have hnext := hissues.generation
    omega
  · rcases List.mem_cons.mp hafter' with rfl | hlater
    · exact le_rfl
    · obtain ⟨h₃, h₄, -, hmid, hallowed, heq', -⟩ := Run.split hrest hlater
      have hsteps := hmid.snoc e'.input hallowed
      have hext := extends_of_run hs hsteps
      have hafter : e'.after = (exec h e'.before e'.input).2 := congrArg Event.after heq'
      rw [hafter]
      exact hext.revision

end Order

section Accept

/-- The gate of a data node that trusts the key of a service. -/
structure Trusts (ed : Trust.Ed25519) (x : Library) (g : Trust.Gate) (svc : Service) : Prop where
  minimum : g.params.minimum = 1
  validate : g.params.validate = validateDelivery x
  installation : g.params.installation = svc.installation
  key : ∃ pub, g.params.keys.get svc.kid = some pub ∧ ed.Paired svc.key pub

/-- The gate has no snapshot yet, or that of one of the events. -/
def Holds (events : List ControlEvent) (g : Trust.Gate) : Prop :=
  g.current = {} ∨
    ∃ e ∈ events, ∃ svc now, Issues e svc now g.raw ∧ g.current = issuedSnapshot e svc now

variable {ed : Trust.Ed25519} {hexSha256 : Bytes → String} {h : Host} {s s' : Store} {g : Trust.Gate}

theorem Sealed.verify (hgo : h.trust = Trust.goPlatform ed hexSha256) {svc : Service} {now : ℤ}
    {raw : Bytes} (hs : Sealed h s s' svc now raw) (ht : Trusts ed h.library g svc) :
    Trust.verify h.trust g.params raw = some (snapshotOf svc s'.delivery s.generation now) := by
  obtain ⟨pub, hkey, hpair⟩ := ht.key
  have hsigned := hs.signed
  rw [hgo] at hsigned ⊢
  refine Trust.verify_signed ed hexSha256 (j := s'.delivery.toDoc) hsigned rfl hpair hkey
    ht.installation.symm ?_ ?_
  · rw [ht.minimum]
    exact Nat.succ_pos _
  · obtain ⟨-, rfl, hlength⟩ := Trust.sign_eq_some ed hexSha256 (j := s'.delivery.toDoc) hsigned rfl
    rw [Doc.length_utf8, textSize_print] at hlength
    rw [ht.validate]
    refine validateDelivery_bytes hs.valid ?_
    rw [s'.delivery.length_bytes]
    exact (size_payload_le _ _ _).trans hlength

/-- A gate that verifies an envelope answers what `judge` says, or stores it. -/
theorem apply_verified {x : Trust.Platform} {raw : Bytes} {t : ℤ} {v : Trust.Snapshot}
    (hfailed : g.failed = false) (hclock : g.lastClock ≤ t)
    (hverify : Trust.verify x g.params raw = some v) (stored : Option Bytes) :
    (Trust.applyLocked x g stored raw t .done).1 = ((g.at t).judge raw v t).getD .done := by
  have hparams : (g.at t).params = g.params := rfl
  unfold Trust.applyLocked
  rw [if_neg (by simp [hfailed]), Trust.Gate.clock_of_le hclock]
  dsimp only
  rw [hparams, hverify]
  dsimp only
  cases (g.at t).judge raw v t <;> rfl

theorem judge_newer {raw : Bytes} {t : ℤ} {v : Trust.Snapshot} (hissued : v.issuedAt ≤ t)
    (hexpires : t < v.expiresAt) (hgeneration : g.current.generation < v.generation)
    (hrevision : g.current.revision ≤ v.revision)
    (hhold : g.clockHold = true → g.recoveryAfter ≤ v.issuedAt) : g.judge raw v t = none := by
  unfold Trust.Gate.judge
  rw [if_neg (by omega), if_neg (by omega), if_neg, if_neg (by omega)]
  rintro ⟨hheld, hle | hlt⟩
  · omega
  · have := hhold hheld
    omega

theorem judge_again {t : ℤ} (hissued : g.current.issuedAt ≤ t) (hexpires : t < g.current.expiresAt)
    (hhold : g.clockHold = false) : g.judge g.raw g.current t = some .done := by
  unfold Trust.Gate.judge
  rw [if_neg (by omega), if_neg (by omega), if_neg (by simp [hhold]), if_pos rfl, if_pos rfl]

theorem Sealed.repeated (hgo : h.trust = Trust.goPlatform ed hexSha256) {svc : Service} {now : ℤ}
    (hs : Sealed h s s' svc now g.raw) (ht : Trusts ed h.library g svc)
    (hcurrent : g.current = snapshotOf svc s'.delivery s.generation now) {stored : Option Bytes}
    {t : ℤ} (hfailed : g.failed = false) (hhold : g.clockHold = false) (hclock : g.lastClock ≤ t)
    (hissued : unix now ≤ t) (hexpires : t < unix (now + day)) :
    (Trust.applyLocked h.trust g stored g.raw t .done).1 = .done := by
  have hverify := hs.verify hgo ht
  have h₁ : g.current.issuedAt ≤ t := by
    rw [hcurrent]
    exact hissued
  have h₂ : t < g.current.expiresAt := by
    rw [hcurrent]
    exact hexpires
  rw [← hcurrent] at hverify
  have hjudge : (g.at t).judge g.raw g.current t = some .done :=
    judge_again (g := g.at t) h₁ h₂ hhold
  rw [apply_verified hfailed hclock hverify, hjudge]
  rfl

variable {s₀ : Store} {events : List ControlEvent}

theorem Issues.accepted (hgo : h.trust = Trust.goPlatform ed hexSha256) (hi : Installed h s₀)
    (hr : ControlRun h s₀ events s) {e : ControlEvent} (he : e ∈ events) {svc : Service} {now : ℤ}
    {raw : Bytes} (hissues : Issues e svc now raw) {stored : Option Bytes} {t : ℤ}
    (ht : Trusts ed h.library g svc) (hheld : Holds events g)
    (hlt : g.current.generation < e.after.generation) (hfailed : g.failed = false)
    (hclock : g.lastClock ≤ t) (hissued : unix now ≤ t) (hexpires : t < unix (now + day))
    (hhold : g.clockHold = true → g.recoveryAfter ≤ unix now) :
    (Trust.applyLocked h.trust g stored raw t .done).1 = .done := by
  have hverify := (hissues.sealed hi hr he).verify hgo ht
  rw [apply_verified hfailed hclock hverify, judge_newer hissued hexpires ?_ ?_ hhold]
  · rfl
  · rw [hissues.generation] at hlt
    exact hlt
  · change g.current.revision ≤ e.after.delivery.config.revision.toNat
    rcases hheld with hnone | ⟨e', he', svc', now', hissues', hcurrent⟩
    · rw [hnone]
      exact Nat.zero_le _
    · have hle : e'.after.generation ≤ e.after.generation := by
        have hgeneration : g.current.generation = e'.before.generation + 1 := by
          rw [hcurrent]
          rfl
        rw [hgeneration, ← hissues'.generation] at hlt
        exact hlt.le
      have hrevision := revision_le_of_generation hi hr he' he hissues' hle
      have hours : g.current.revision = e'.after.delivery.config.revision.toNat := by
        rw [hcurrent]
        rfl
      rw [hours]
      exact Int.toNat_le_toNat hrevision

theorem recoverClock_envelope (hw : Wellformed h s) {svc : Service} {request : Trust.ClockRecovery}
    {now : ℤ} {raw : Bytes} (hrun : recoverClock h svc s request now = (.envelope raw, s')) :
    (∃ p, s.published = some p ∧ raw = p.raw ∧ request.generation < s.generation ∧
      request.notBefore ≤ unix p.issuedAt) ∨
    (request.generation ≤ s.generation ∧ request.notBefore ≤ unix now ∧
      Sealed h s s' svc now raw) := by
  unfold recoverClock at hrun
  split at hrun
  · cases hrun
  split at hrun
  · cases hrun
  split at hrun
  · cases hrun
  rename_i hread
  obtain ⟨rfl, rfl⟩ := readDelivery_eq hw.delivery hread
  split at hrun
  · cases hrun
  rename_i p hp
  split at hrun
  · cases hrun
  rename_i hguard
  push Not at hguard
  split at hrun
  · rename_i hnewer
    obtain ⟨hraw, -⟩ := Prod.mk.inj hrun
    exact .inl ⟨p, hp, (Reply.envelope.inj hraw).symm, hnewer.1, hnewer.2⟩
  split at hrun
  · cases hrun
  split at hrun
  · cases hrun
  rename_i hsigned
  obtain ⟨raw', hs⟩ := sealed_of_sign s.events hsigned
  rw [hs.published] at hrun
  obtain ⟨hraw, rfl⟩ := Prod.mk.inj hrun
  rw [← Reply.envelope.inj hraw]
  exact .inr ⟨hguard.2.2.2, hguard.1, hs⟩

/-- What `RecoverClock` returns was committed by it or before, with a generation and a
time after those of the request. -/
theorem recovery_issued (hi : Installed h s₀) (hr : ControlRun h s₀ events s) {svc : Service}
    {request : Trust.ClockRecovery} {now : ℤ} {raw : Bytes}
    (hreply : (recoverClock h svc s request now).1 = .envelope raw) :
    ∃ e ∈ events ++ [eventOf (exec h) s (.recoverClock svc request now)], ∃ signer issuedAt,
      Issues e signer issuedAt raw ∧ request.generation < e.after.generation ∧
        request.notBefore ≤ unix issuedAt := by
  have hrun : recoverClock h svc s request now =
      (.envelope raw, (recoverClock h svc s request now).2) := Prod.ext hreply rfl
  rcases recoverClock_envelope (steady_of_run hi hr).toWellformed hrun with
    ⟨p, hp, rfl, hgeneration, hbefore⟩ | ⟨hgeneration, hbefore, hs⟩
  · obtain ⟨e, he, signer, issuedAt, hissues, rfl, hsame⟩ := published_of_run hi hr hp
    rw [← hsame] at hgeneration
    exact ⟨e, List.mem_append_left _ he, signer, p.issuedAt, hissues, hgeneration, hbefore⟩
  · refine ⟨_, List.mem_append_right _ List.mem_cons_self, svc, now,
      ⟨rfl, hs.generation, hs.published⟩, ?_, hbefore⟩
    have hnext : (eventOf (exec h) s (.recoverClock svc request now)).after.generation =
        s.generation + 1 := hs.generation
    rw [hnext]
    omega

theorem Holds.mono {events' : List ControlEvent} (hsub : ∀ e ∈ events, e ∈ events')
    (hheld : Holds events g) : Holds events' g := by
  rcases hheld with hnone | ⟨e, he, rest⟩
  · exact .inl hnone
  · exact .inr ⟨e, hsub e he, rest⟩

/-- Every envelope that Control commits is taken by a gate that trusts its key and holds
an earlier one, while it is valid and the clock of the node has not gone back. A gate
that is held takes what `RecoverClock` returns for its request, and the delivery stays
as it is. -/
theorem envelopes_accepted (hgo : h.trust = Trust.goPlatform ed hexSha256) (hi : Installed h s₀)
    (hr : ControlRun h s₀ events s) :
    (∀ e ∈ events, Keeps e.before e.after ∨ ∃ svc now raw, Issues e svc now raw) ∧
    ∀ early e late, events = early ++ e :: late →
      (∀ svc now raw, Issues e svc now raw → ∀ g stored t, Trusts ed h.library g svc →
        Holds (early ++ [e]) g → g.failed = false → g.clockHold = false → g.lastClock ≤ t →
          unix now ≤ t → t < unix (now + day) →
            (Trust.applyLocked h.trust g stored raw t .done).1 = .done) ∧
      ∀ svc request now, e.input = .recoverClock svc request now →
        e.after.delivery = e.before.delivery ∧
        ∀ raw, e.output = .envelope raw → ∃ e' ∈ early ++ [e], ∃ signer issuedAt,
          Issues e' signer issuedAt raw ∧ ∀ g stored t, g.recoveryRequest h.trust = some request →
            Holds early g → Trusts ed h.library g signer → g.lastClock ≤ t →
              unix issuedAt ≤ t → t < unix (issuedAt + day) →
                (Trust.applyLocked h.trust g stored raw t .done).1 = .done := by
  refine ⟨fun e he => issues_of_run hi hr he, ?_⟩
  rintro early e late rfl
  have happend : early ++ e :: late = early ++ [e] ++ late := by simp
  rw [happend] at hr
  obtain ⟨m, hrun, -⟩ := Run.of_append hr
  have hlast : e ∈ early ++ [e] := List.mem_append_right _ List.mem_cons_self
  obtain ⟨before, hearly, hlate⟩ := Run.of_append hrun
  obtain ⟨-, heq, -⟩ := Run.of_cons hlate
  constructor
  · intro svc now raw hissues g stored t ht hheld hfailed hhold hclock hissued hexpires
    by_cases hlt : g.current.generation < e.after.generation
    · exact hissues.accepted hgo hi hrun hlast ht hheld hlt hfailed hclock hissued hexpires
        (by simp [hhold])
    · -- only the envelope of `e` itself has its generation
      rcases hheld with hnone | ⟨e', he', svc', now', hissues', hcurrent⟩
      · rw [hnone, hissues.generation] at hlt
        exact absurd (Nat.succ_pos _) hlt
      · have hgeneration : g.current.generation = e'.after.generation := by
          rw [hcurrent, hissues'.generation]
          rfl
        rcases List.mem_append.mp he' with hin | hin
        · have hle := (later_of_run hi hearly hin).1
          have hbefore : e.before = before := congrArg Event.before heq
          have hnext := hissues.generation
          rw [hbefore] at hnext
          omega
        · obtain rfl := List.mem_singleton.mp hin
          obtain ⟨rfl, rfl⟩ := Prod.mk.inj (Option.some.inj (hissues.signer.symm.trans
            hissues'.signer))
          obtain rfl : raw = g.raw := congrArg Published.raw (Option.some.inj
            (hissues.published.symm.trans hissues'.published))
          exact (hissues.sealed hi hrun hlast).repeated hgo ht hcurrent hfailed hhold hclock
            hissued hexpires
  · intro svc request now hop
    have hbefore : e.before = before := congrArg Event.before heq
    have hafter : e.after = (exec h before e.input).2 := congrArg Event.after heq
    have houtput : e.output = (exec h before e.input).1 := congrArg Event.output heq
    rw [hop] at hafter houtput
    constructor
    · have hd := exec_does (steady_of_run hi hearly).toWellformed (.recoverClock svc request now)
      rw [hafter, hbefore]
      exact hd.recoverClock_delivery
    · intro raw hraw
      rw [houtput] at hraw
      obtain ⟨e', he', signer, issuedAt, hissues, hgeneration, hlater⟩ :=
        recovery_issued hi hearly hraw
      rw [← hop, ← heq] at he'
      refine ⟨e', he', signer, issuedAt, hissues, ?_⟩
      intro g stored t hrequest hheld ht hclock hissued hexpires
      unfold Trust.Gate.recoveryRequest at hrequest
      split at hrequest
      · cases hrequest
      rename_i hopen
      push Not at hopen
      obtain rfl := Option.some.inj hrequest
      refine hissues.accepted hgo hi hrun he' ht (hheld.mono fun _ => List.mem_append_left _)
        hgeneration (by simpa using hopen.1) hclock hissued hexpires fun _ => hlater

end Accept

section Sample

def sampleDigest (_ : Bytes) : String := String.ofList (List.replicate 64 '0')

def goHost : Host where
  library := sampleLibrary
  trust := Trust.goPlatform sampleEd sampleDigest
  order := id
  order_perm := sampleHost.order_perm

theorem controlRun_one (h : Host) (s : Store) (op : Op) :
    ControlRun h s [eventOf (exec h) s op] (eventOf (exec h) s op).after := Run.single trivial

theorem sampleConfig_fits : sampleConfig.FitsDeliveryBudget := fits_of_size (by decide)

/-- The rows once `sign` has made an envelope of the same delivery. -/
def Store.issue (s : Store) (raw : Bytes) (now : ℤ) : Store := { s with
  generation := s.generation + 1
  published := some ⟨raw, "key", now, now + day⟩ }

section Signed

variable (s : Store) (now : ℤ) (hconfig : s.config = sampleConfig) (hrevision : s.revision = 0)
  (hdelivery : s.delivery = ⟨sampleConfig, []⟩) (hgeneration : s.generation < 1000)
  (hnow : 0 < unix now ∧ unix now < 1000)
include hconfig hrevision hdelivery hgeneration hnow

theorem sample_signs : readConfig goHost s = some s.config ∧
    readDelivery goHost s = some (s.delivery, s.generation) ∧
    ∃ raw, sign goHost sampleService s s.delivery s.generation now = .ok (s.issue raw now) := by
  have hvalid : sampleConfig.Valid goHost.library := by decide
  have hd : s.delivery.Valid goHost.library := by
    rw [hdelivery]
    exact ⟨hvalid, .nil⟩
  have hc : s.config.Valid goHost.library := by
    rw [hconfig]
    exact hvalid
  have hreadConfig : readConfig goHost s = some s.config :=
    readConfig_of_size hc (by rw [hconfig, hrevision]; rfl) (size_empty_config hc (by rw [hconfig]; rfl))
  have hreadDelivery : readDelivery goHost s = some (s.delivery, s.generation) := by
    refine readDelivery_of_size hd ?_
    rw [hdelivery]
    decide
  have hjson : goHost.trust.jsonValid s.delivery.bytes = true :=
    Trust.jsonValid_print sampleEd sampleDigest s.delivery.toDoc
  have hstructural : (snapshotOf sampleService s.delivery s.generation now).Structural
      goHost.trust :=
    snapshotOf_structural hd (by decide) (by decide) (by unfold maxInteger; omega) hnow.1 (by omega)
      hjson
  have hsame : s.delivery.config = { sampleConfig with revision := s.delivery.config.revision } := by
    rw [hdelivery]
  obtain ⟨-, raw, hraw⟩ := sign_of_fits sampleEd sampleDigest sampleConfig_fits hsame hd hstructural
    rfl (by decide : sampleService.key.length = Trust.privateKeySize)
  obtain ⟨-, hbytes, hlength⟩ := Trust.sign_eq_some sampleEd sampleDigest (j := s.delivery.toDoc)
    hraw rfl
  have hpos : 0 < raw.length := by
    rw [hbytes, Doc.length_utf8, textSize_print]
    exact size_obj_pos _ _
  exact ⟨hreadConfig, hreadDelivery, raw,
    sign_of_trust (s := s) hd (by unfold maxInteger; omega) hraw hpos hlength⟩

theorem sample_refresh (hold : ∀ p, s.published = some p → p.issuedAt + 300000000 ≤ now) :
    ∃ e raw, ControlRun goHost s [e] e.after ∧ Issues e sampleService now raw ∧
      e.after = s.issue raw now := by
  obtain ⟨hreadConfig, hreadDelivery, raw, hsign⟩ :=
    sample_signs s now hconfig hrevision hdelivery hgeneration hnow
  have hrefresh : exec goHost s (.refresh sampleService now) = (.done, s.issue raw now) := by
    rw [exec]
    unfold refresh
    rw [hreadConfig]
    dsimp only
    rw [hreadDelivery]
    dsimp only
    rw [hsign]
    cases hp : s.published with
    | none => rfl
    | some p =>
      have hlate := hold p hp
      dsimp only
      rw [if_neg (by omega), if_neg (by omega)]
  have hafter : (eventOf (exec goHost) s (.refresh sampleService now)).after = s.issue raw now := by
    rw [eventOf_after, hrefresh]
  have hissues : Issues (eventOf (exec goHost) s (.refresh sampleService now)) sampleService now
      raw := ⟨rfl, congrArg Store.generation hafter, congrArg Store.published hafter⟩
  exact ⟨_, raw, controlRun_one goHost s _, hissues, hafter⟩

theorem sample_recovers (request : Trust.ClockRecovery) {p : Published}
    (hpublished : s.published = some p) (hsince : p.issuedAt ≤ now) (huntil : now < p.expiresAt)
    (hlast : request.generation = s.generation) (hpos : 0 < s.generation)
    (hdigest : request.digest = sampleDigest p.raw) (hafter : unix p.issuedAt < request.notBefore)
    (hbefore : 0 < request.notBefore ∧ request.notBefore ≤ unix now) :
    ∃ raw, exec goHost s (.recoverClock sampleService request now) =
      (.envelope raw, s.issue raw now) := by
  obtain ⟨hreadConfig, hreadDelivery, raw, hsign⟩ :=
    sample_signs s now hconfig hrevision hdelivery hgeneration hnow
  have hhex : HexDigest request.digest := by
    rw [hdigest]
    exact (by decide : HexDigest (sampleDigest []))
  refine ⟨raw, ?_⟩
  rw [exec]
  unfold recoverClock
  rw [if_neg ?_, hreadConfig]
  · dsimp only
    rw [hreadDelivery]
    dsimp only
    rw [hpublished]
    dsimp only
    have hnew : ¬ (s.generation = request.generation ∧
        goHost.trust.hexSha256 p.raw ≠ request.digest ∨ request.notBefore < unix p.issuedAt) := by
      rintro (⟨-, hne⟩ | hlt)
      · exact hne hdigest.symm
      · omega
    rw [if_neg (by omega), if_neg (by omega), if_neg hnew, hsign]
    rfl
  · rintro (h | h | h | h | h)
    · omega
    · unfold maxInteger at h
      omega
    · omega
    · omega
    · exact h hhex

end Signed

def sampleGate (current : Trust.Snapshot) (raw : Bytes) : Trust.Gate where
  params :=
    { keys := (∅ : Table String Bytes).put "key" (List.replicate 32 0)
      installation := "site"
      minimum := 1
      validate := validateDelivery sampleLibrary }
  current := current
  raw := raw
  lastClock := 300

theorem sampleGate_trusts {g : Trust.Gate} (hg : g.params = (sampleGate {} []).params) :
    Trusts sampleEd goHost.library g sampleService := by
  refine ⟨congrArg Trust.Params.minimum hg, congrArg Trust.Params.validate hg,
    congrArg Trust.Params.installation hg, List.replicate 32 0, ?_, rfl⟩
  rw [hg]
  exact Table.get_put_self _ _ _

/-- A node that has the first envelope takes the second one. When its clock has gone back
after that, it takes the one that Control signs for its request. -/
theorem sample_envelopes_accepted : ∃ e₁ e₂ e₃ first second third,
    ControlRun goHost sampleStore [e₁, e₂, e₃] e₃.after ∧
    (Trust.applyLocked goHost.trust (sampleGate (issuedSnapshot e₁ sampleService 1000000) first)
      (some first) second 401 .done).1 = .done ∧
    e₃.input = .recoverClock sampleService ⟨2, 401, sampleDigest second⟩ 500000000 ∧
    e₃.output = .envelope third ∧ e₃.after.delivery = e₃.before.delivery ∧
    (Trust.applyLocked goHost.trust
      { sampleGate (issuedSnapshot e₂ sampleService 400000000) second with
        clockHold := true, recoveryAfter := 401 } (some second) third 501 .done).1 = .done := by
  have hinstalled : Installed goHost sampleStore := ⟨by decide, rfl, rfl, by decide, rfl, rfl, rfl,
    le_rfl, rfl, rfl, fun _ => rfl⟩
  obtain ⟨e₁, first, hrun₁, h₁, hafter₁⟩ := sample_refresh sampleStore 1000000 rfl
    rfl rfl (by decide) (by decide) nofun
  obtain ⟨e₂, second, hrun₂, h₂, hafter₂⟩ := sample_refresh e₁.after 400000000
    (by rw [hafter₁]; rfl) (by rw [hafter₁]; rfl) (by rw [hafter₁]; rfl)
    (by rw [hafter₁]; exact (by decide : 1 < 1000)) (by decide) (by
      intro p hp
      rw [hafter₁] at hp
      obtain rfl := Option.some.inj hp
      exact (by decide : (1000000 + 300000000 : ℤ) ≤ 400000000))
  rw [hafter₁] at hafter₂
  obtain ⟨third, hrecovers⟩ := sample_recovers e₂.after 500000000 (by rw [hafter₂]; rfl)
    (by rw [hafter₂]; rfl) (by rw [hafter₂]; rfl)
    (by rw [hafter₂]; exact (by decide : 2 < 1000)) (by decide)
    ⟨2, 401, sampleDigest second⟩ h₂.published
    (by decide : (400000000 : ℤ) ≤ 500000000) (by decide : (500000000 : ℤ) < 400000000 + day)
    (by rw [hafter₂]; rfl) (by rw [hafter₂]; exact (by decide : 0 < 2)) rfl
    (by decide : unix 400000000 < 401) ⟨(by decide : (0 : ℤ) < 401), (by decide : 401 ≤ unix 500000000)⟩
  have hinput : (eventOf (exec goHost) e₂.after
      (.recoverClock sampleService ⟨2, 401, sampleDigest second⟩ 500000000)).input =
        .recoverClock sampleService ⟨2, 401, sampleDigest second⟩ 500000000 := rfl
  generalize heq : eventOf (exec goHost) e₂.after
    (.recoverClock sampleService ⟨2, 401, sampleDigest second⟩ 500000000) = e₃ at hinput
  have hrun₃ : ControlRun goHost e₂.after [e₃] e₃.after := heq ▸ controlRun_one goHost e₂.after _
  have houtput : e₃.output = .envelope third := by
    rw [← heq, eventOf, hrecovers]
  have hrun := (hrun₁.append hrun₂).append hrun₃
  have haccepted := (envelopes_accepted rfl hinstalled hrun).2
  refine ⟨e₁, e₂, e₃, first, second, third, hrun, ?_, hinput, houtput, ?_⟩
  · exact (haccepted [e₁] e₂ [e₃] rfl).1 sampleService 400000000 second h₂ _ (some first) 401
      (sampleGate_trusts rfl) (.inr ⟨e₁, List.mem_cons_self, sampleService, 1000000, h₁, rfl⟩) rfl rfl
      (by decide : (300 : ℤ) ≤ 401) (by decide) (by decide)
  · obtain ⟨hsame, hanswer⟩ := (haccepted [e₁, e₂] e₃ [] rfl).2 _ _ _ hinput
    refine ⟨hsame, ?_⟩
    obtain ⟨e', he', signer, issuedAt, hissues, htaken⟩ := hanswer third houtput
    have hsigner : signer = sampleService ∧ unix issuedAt ≤ 501 ∧ 501 < unix (issuedAt + day) := by
      have hsigns := hissues.signer
      simp only [List.cons_append, List.nil_append, List.mem_cons, List.not_mem_nil, or_false] at he'
      rcases he' with rfl | rfl | rfl
      · obtain ⟨rfl, rfl⟩ := Prod.mk.inj (Option.some.inj (hsigns.symm.trans h₁.signer))
        exact ⟨rfl, by decide, by decide⟩
      · obtain ⟨rfl, rfl⟩ := Prod.mk.inj (Option.some.inj (hsigns.symm.trans h₂.signer))
        exact ⟨rfl, by decide, by decide⟩
      · rw [hinput] at hsigns
        obtain ⟨rfl, rfl⟩ := Prod.mk.inj (Option.some.inj hsigns)
        exact ⟨rfl, by decide, by decide⟩
    obtain ⟨rfl, hissued, hexpires⟩ := hsigner
    have hgeneration : (issuedSnapshot e₂ sampleService 400000000).generation = 2 := by
      have hnext := h₂.generation
      rw [hafter₂] at hnext
      exact hnext.symm
    refine htaken _ (some second) 501 ?_ (.inr ⟨e₂, by simp, sampleService, 400000000, h₂, rfl⟩)
      (sampleGate_trusts rfl) (by decide : (300 : ℤ) ≤ 501) hissued hexpires
    unfold Trust.Gate.recoveryRequest
    rw [if_neg (by simp [sampleGate, hgeneration]), ← hgeneration]
    rfl

end Sample

end WaitingRoom.Control
