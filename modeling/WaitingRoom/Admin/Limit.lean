import WaitingRoom.Shared.Run
import WaitingRoom.Shared.Table

/-!
# Authentication attempt budgets

`ReserveAuthHTTP` and `reserveAttempt` charge one-minute buckets, widest first,
in one transaction that commits whether or not the last charge was refused. The
row lock of the installation bucket serialises the calls of either kind, so a
call is one step here; it carries the readings of the database clock that it
makes. Times are microseconds.
-/

namespace WaitingRoom.Admin

set_option autoImplicit false

def minute : ℤ := 60000000

/-- A row of `auth_login_buckets`. -/
structure Bucket where
  startedAt : ℤ
  expiresAt : ℤ
  used : Nat
  deriving DecidableEq, Repr

inductive Key
  | httpInstallation
  | httpSource (fp : String)
  | installation
  | source (fp : String)
  | account (fp : String)
  deriving DecidableEq, Repr

/-- The limit that goes with each kind of key in the two functions. -/
def Key.limit : Key → Nat
  | .httpInstallation => 60
  | .httpSource _ => 20
  | .installation => 60
  | .source _ => 20
  | .account _ => 5

abbrev Buckets := Table Key Bucket

structure Charge where
  key : Key
  now : ℤ
  deriving DecidableEq, Repr

inductive Verdict
  | admitted
  | refused (key : Key)
  deriving DecidableEq, Repr

def Bucket.next (b : Bucket) (now : ℤ) : Bucket :=
  if b.expiresAt ≤ now then ⟨now, now + minute, 1⟩ else { b with used := b.used + 1 }

/-- The loop over the buckets of one call. It ends at the first bucket that
refuses, with the earlier ones already charged; `note` is what that bucket keeps
of the refusal. -/
def chargeAll (note : Nat → Bucket → Bucket) : Buckets → List Charge → Verdict × Buckets
  | rows, [] => (.admitted, rows)
  | rows, c :: cs =>
    match rows.get c.key with
    | none => chargeAll note (rows.put c.key ⟨c.now, c.now + minute, 1⟩) cs
    | some b =>
      if c.now < b.startedAt ∨ c.now < b.expiresAt ∧ c.key.limit ≤ b.used then
        (.refused c.key, rows.put c.key (note c.key.limit b))
      else chargeAll note (rows.put c.key (b.next c.now)) cs

def reserve (note : Nat → Bucket → Bucket) (prunes : Key → Bool) (prunedAt : ℤ) (rows : Buckets)
    (cs : List Charge) : Verdict × Buckets :=
  match chargeAll note rows cs with
  | (.admitted, rows) =>
    (.admitted, rows.filter fun k b => !(prunes k && decide (b.expiresAt ≤ prunedAt)))
  | (.refused k, rows) => (.refused k, rows)

/-- `now.Unix()/86400`. -/
def day (now : ℤ) : ℤ := (now / 1000000).tdiv 86400

section Calls

variable (fingerprint : String → String → String)

structure HttpCall where
  source : String
  installationAt : ℤ
  dayAt : ℤ
  sourceAt : ℤ
  prunedAt : ℤ
  deriving DecidableEq, Repr

def HttpCall.charges (c : HttpCall) : List Charge :=
  [⟨.httpInstallation, c.installationAt⟩,
    ⟨.httpSource (fingerprint s!"http-source/{day c.dayAt}" c.source), c.sourceAt⟩]

def HttpCall.readings (c : HttpCall) : List ℤ :=
  [c.installationAt, c.dayAt, c.sourceAt, c.prunedAt]

def reserveAuthHTTP (rows : Buckets) (c : HttpCall) : Verdict × Buckets :=
  reserve (fun _ b => b)
    (fun | .httpSource _ => true | _ => false) c.prunedAt rows (c.charges fingerprint)

structure AttemptCall where
  user : String
  source : String
  installationAt : ℤ
  dayAt : ℤ
  sourceAt : ℤ
  accountAt : ℤ
  prunedAt : ℤ
  deriving DecidableEq, Repr

def AttemptCall.charges (c : AttemptCall) : List Charge :=
  [⟨.installation, c.installationAt⟩,
    ⟨.source (fingerprint s!"source/{day c.dayAt}" c.source), c.sourceAt⟩,
    ⟨.account (fingerprint "account" c.user), c.accountAt⟩]

def AttemptCall.readings (c : AttemptCall) : List ℤ :=
  [c.installationAt, c.dayAt, c.sourceAt, c.accountAt, c.prunedAt]

/-- The first refusal of a window is recorded in the bucket itself, with a count
one above its limit. -/
def noteLockout (limit : Nat) (b : Bucket) : Bucket :=
  if b.used ≤ limit then { b with used := limit + 1 } else b

def reserveAttempt (rows : Buckets) (c : AttemptCall) : Verdict × Buckets :=
  reserve noteLockout
    (fun | .source _ => true | .account _ => true | _ => false) c.prunedAt rows
    (c.charges fingerprint)

inductive Call
  | http (c : HttpCall)
  | attempt (c : AttemptCall)
  deriving DecidableEq, Repr

def Call.charges : Call → List Charge
  | .http c => c.charges fingerprint
  | .attempt c => c.charges fingerprint

def Call.readings : Call → List ℤ
  | .http c => c.readings
  | .attempt c => c.readings

def perform (rows : Buckets) : Call → Verdict × Buckets
  | .http c => reserveAuthHTTP fingerprint rows c
  | .attempt c => reserveAttempt fingerprint rows c

end Calls

/-! ## The ledger of charges -/

def committed (v : Verdict) (cs : List Charge) : List Charge :=
  cs.takeWhile fun c => v ≠ .refused c.key

def Charge.Falls (c : Charge) (k : Key) (since : ℤ) : Prop := c.key = k ∧ since ≤ c.now
  deriving Decidable

/-- How many charges of the ledger went to `k` since a moment. -/
def chargedSince (ledger : List Charge) (k : Key) (since : ℤ) : Nat :=
  ledger.countP fun c => c.Falls k since

/-- What a row says about the charges made so far. A count above the limit only
says that the limit was reached. -/
structure Backed (ledger : List Charge) (k : Key) (b : Bucket) : Prop where
  opened : ⟨k, b.startedAt⟩ ∈ ledger
  lasts : b.expiresAt = b.startedAt + minute
  used : min b.used k.limit ≤ chargedSince ledger k b.startedAt

def AllBacked (ledger : List Charge) (rows : Buckets) : Prop :=
  ∀ k b, rows.get k = some b → Backed ledger k b

theorem chargedSince_append (l₁ l₂ : List Charge) (k : Key) (since : ℤ) :
    chargedSince (l₁ ++ l₂) k since = chargedSince l₁ k since + chargedSince l₂ k since :=
  List.countP_append

variable {ledger cs : List Charge} {k : Key} {b : Bucket} {rows : Buckets}

theorem Backed.append (h : Backed ledger k b) (more : List Charge) :
    Backed (ledger ++ more) k b where
  opened := List.mem_append_left _ h.opened
  lasts := h.lasts
  used := by
    rw [chargedSince_append]
    exact Nat.le_add_right_of_le h.used

theorem AllBacked.put (h : AllBacked ledger rows) {more : List Charge}
    (hb : Backed (ledger ++ more) k b) :
    AllBacked (ledger ++ more) (rows.put k b) := by
  intro k' b' hk
  rw [Table.get_put] at hk
  split at hk
  · subst k'
    obtain rfl := Option.some.inj hk
    exact hb
  · exact (h k' b' hk).append more

theorem Backed.start (ledger : List Charge) (c : Charge) :
    Backed (ledger ++ [c]) c.key ⟨c.now, c.now + minute, 1⟩ where
  opened := List.mem_append_right _ List.mem_cons_self
  lasts := rfl
  used := by
    have hone : chargedSince [c] c.key c.now = 1 := by simp [chargedSince, Charge.Falls]
    rw [chargedSince_append, hone]
    exact (Nat.min_le_left 1 _).trans (Nat.le_add_left 1 _)

theorem Backed.next {c : Charge} (h : Backed ledger c.key b) (hnow : b.startedAt ≤ c.now) :
    Backed (ledger ++ [c]) c.key (b.next c.now) := by
  rw [Bucket.next]
  split
  · exact Backed.start ledger c
  · have hone : chargedSince [c] c.key b.startedAt = 1 := by
      simp [chargedSince, Charge.Falls, hnow]
    refine ⟨List.mem_append_left _ h.opened, h.lasts, ?_⟩
    have hused := h.used
    rw [chargedSince_append, hone]
    show min (b.used + 1) c.key.limit ≤ chargedSince ledger c.key b.startedAt + 1
    omega

def Harmless (note : Nat → Bucket → Bucket) : Prop :=
  ∀ limit b, (note limit b).startedAt = b.startedAt ∧ (note limit b).expiresAt = b.expiresAt

theorem noteLockout_harmless : Harmless noteLockout := by
  intro limit b
  rw [noteLockout]
  split <;> exact ⟨rfl, rfl⟩

theorem Backed.note {note : Nat → Bucket → Bucket} (hnote : Harmless note)
    (h : Backed ledger k b) (hfull : k.limit ≤ b.used) :
    Backed ledger k (note k.limit b) := by
  obtain ⟨hs, he⟩ := hnote k.limit b
  refine ⟨hs ▸ h.opened, by rw [hs, he]; exact h.lasts, ?_⟩
  have hused := h.used
  rw [hs]
  omega

theorem committed_cons {v : Verdict} {c : Charge} (hv : v ≠ .refused c.key) :
    committed v (c :: cs) = c :: committed v cs := by
  rw [committed, List.takeWhile_cons_of_pos (by simpa using hv), committed]

theorem committed_refused (c : Charge) (cs : List Charge) :
    committed (.refused c.key) (c :: cs) = [] := by
  rw [committed, List.takeWhile_cons_of_neg (by simp)]

def RefusedBy (rows : Buckets) (cs : List Charge) (k : Key) : Prop :=
  ∃ b now, rows.get k = some b ∧ ⟨k, now⟩ ∈ cs ∧ b.startedAt ≤ now ∧ now < b.expiresAt ∧
    k.limit ≤ b.used

theorem chargeAll_backed {note : Nat → Bucket → Bucket} (hnote : Harmless note)
    (h : AllBacked ledger rows) (hclock : (ledger ++ cs).Pairwise fun a b => a.now ≤ b.now)
    (hkeys : (cs.map Charge.key).Nodup) :
    AllBacked (ledger ++ committed (chargeAll note rows cs).1 cs) (chargeAll note rows cs).2 ∧
      ∀ k, (chargeAll note rows cs).1 = .refused k → RefusedBy rows cs k := by
  induction cs generalizing ledger rows with
  | nil =>
    rw [chargeAll, committed, List.takeWhile_nil, List.append_nil]
    exact ⟨h, nofun⟩
  | cons c cs ih =>
    obtain ⟨hfresh, hkeys⟩ := List.nodup_cons.mp hkeys
    -- a charge that this bucket accepts leaves the rest of the call to the induction
    have accept : ∀ b, Backed (ledger ++ [c]) c.key b →
        AllBacked (ledger ++ committed (chargeAll note (rows.put c.key b) cs).1 (c :: cs))
            (chargeAll note (rows.put c.key b) cs).2 ∧
          ∀ k, (chargeAll note (rows.put c.key b) cs).1 = .refused k →
            RefusedBy rows (c :: cs) k := by
      intro b hb
      have hsplit : ledger ++ c :: cs = (ledger ++ [c]) ++ cs := by simp
      obtain ⟨hall, hrefused⟩ := ih (h.put hb) (hsplit ▸ hclock) hkeys
      have hother : ∀ k, (chargeAll note (rows.put c.key b) cs).1 = .refused k → k ≠ c.key := by
        intro k hk heq
        obtain ⟨_, now, _, hmem, _⟩ := hrefused k hk
        exact hfresh (heq ▸ List.mem_map.mpr ⟨_, hmem, rfl⟩)
      constructor
      · rw [committed_cons fun hv => hother _ hv rfl]
        simpa using hall
      · intro k hk
        obtain ⟨b', now, hget, hmem, hrest⟩ := hrefused k hk
        rw [Table.get_put_ne (hother k hk)] at hget
        exact ⟨b', now, hget, List.mem_cons_of_mem _ hmem, hrest⟩
    rw [chargeAll]
    split
    · exact accept _ (Backed.start ledger c)
    · next b hget =>
      have hb := h _ _ hget
      have hstart : b.startedAt ≤ c.now :=
        (List.pairwise_append.mp hclock).2.2 _ hb.opened _ List.mem_cons_self
      split
      · next hcond =>
        have hfull : c.now < b.expiresAt ∧ c.key.limit ≤ b.used := by omega
        constructor
        · rw [committed_refused]
          exact h.put ((hb.note hnote hfull.2).append [])
        · intro k hk
          obtain rfl := Verdict.refused.inj hk
          exact ⟨b, c.now, hget, List.mem_cons_self, hstart, hfull.1, hfull.2⟩
      · exact accept _ (hb.next hstart)

theorem AllBacked.filter (h : AllBacked ledger rows) (p : Key → Bucket → Bool) :
    AllBacked ledger (rows.filter p) := by
  intro k b hk
  rw [Table.get_filter, Option.filter_eq_some_iff] at hk
  exact h k b hk.1

theorem reserve_backed {note : Nat → Bucket → Bucket} (hnote : Harmless note)
    (prunes : Key → Bool) (prunedAt : ℤ)
    (h : AllBacked ledger rows) (hclock : (ledger ++ cs).Pairwise fun a b => a.now ≤ b.now)
    (hkeys : (cs.map Charge.key).Nodup) :
    AllBacked (ledger ++ committed (reserve note prunes prunedAt rows cs).1 cs)
        (reserve note prunes prunedAt rows cs).2 ∧
      ∀ k, (reserve note prunes prunedAt rows cs).1 = .refused k → RefusedBy rows cs k := by
  have hall := chargeAll_backed hnote h hclock hkeys
  rw [reserve]
  split
  · next heq =>
    rw [heq] at hall
    exact ⟨hall.1.filter _, nofun⟩
  · next heq =>
    rw [heq] at hall
    exact hall

section Runs

variable (fingerprint : String → String → String)

abbrev Record := Event Buckets Call Verdict

def ledgerOf (h : List Record) : List Charge :=
  h.flatMap fun e => committed e.output (e.input.charges fingerprint)

def ClockRuns (h : List Record) : Prop :=
  (h.flatMap fun e => e.input.readings).Pairwise (· ≤ ·)

theorem Call.keys_nodup (c : Call) : ((c.charges fingerprint).map Charge.key).Nodup := by
  cases c <;> simp [Call.charges, HttpCall.charges, AttemptCall.charges]

theorem Call.charges_sublist (c : Call) :
    ((c.charges fingerprint).map Charge.now).Sublist c.readings := by
  cases c with
  | http c => exact .cons_cons _ (.cons _ (.cons_cons _ (.cons _ .slnil)))
  | attempt c => exact .cons_cons _ (.cons _ (.cons_cons _ (.cons_cons _ (.cons _ .slnil))))

theorem ledgerOf_sublist (h : List Record) :
    ((ledgerOf fingerprint h).map Charge.now).Sublist (h.flatMap fun e => e.input.readings) := by
  induction h with
  | nil => exact .slnil
  | cons e h ih =>
    rw [ledgerOf, List.flatMap_cons, List.flatMap_cons, List.map_append]
    apply List.Sublist.append _ ih
    exact ((List.takeWhile_sublist _).map _).trans (e.input.charges_sublist fingerprint)

theorem ClockRuns.left {h h' : List Record} (hclock : ClockRuns (h ++ h')) : ClockRuns h := by
  rw [ClockRuns, List.flatMap_append] at hclock
  exact (List.pairwise_append.mp hclock).1

theorem ClockRuns.charges {h : List Record} {c : Call} {v : Verdict} {s s' : Buckets}
    (hclock : ClockRuns (h ++ [⟨s, c, v, s'⟩])) :
    (ledgerOf fingerprint h ++ c.charges fingerprint).Pairwise fun a b => a.now ≤ b.now := by
  rw [← List.pairwise_map, List.map_append]
  refine List.Pairwise.sublist ?_ hclock
  rw [List.flatMap_append, List.flatMap_singleton]
  exact (ledgerOf_sublist fingerprint h).append (c.charges_sublist fingerprint)

theorem perform_backed {ledger : List Charge} {rows : Buckets} {c : Call}
    (h : AllBacked ledger rows)
    (hclock : (ledger ++ c.charges fingerprint).Pairwise fun a b => a.now ≤ b.now) :
    AllBacked (ledger ++ committed (perform fingerprint rows c).1 (c.charges fingerprint))
        (perform fingerprint rows c).2 ∧
      ∀ k, (perform fingerprint rows c).1 = .refused k →
        RefusedBy rows (c.charges fingerprint) k := by
  have hkeys := c.keys_nodup fingerprint
  cases c with
  | http c => exact reserve_backed (fun _ _ => ⟨rfl, rfl⟩) _ _ h hclock hkeys
  | attempt c => exact reserve_backed noteLockout_harmless _ _ h hclock hkeys

theorem backed_of_run {h : List Record} {s : Buckets}
    (hr : Run (perform fingerprint) (fun _ _ => True) ∅ h s) (hclock : ClockRuns h) :
    AllBacked (ledgerOf fingerprint h) s := by
  induction hr with
  | nil => exact fun _ _ hk => nomatch hk
  | @snoc h s c _ _ ih =>
    have hstep := (perform_backed fingerprint (ih hclock.left) (hclock.charges fingerprint)).1
    rw [ledgerOf, List.flatMap_append, List.flatMap_singleton]
    exact hstep

/-- A call that `k` has let pass since a moment. A bucket charged after it may have
refused the call. -/
def PassedSince (k : Key) (since : ℤ) (e : Record) : Prop :=
  ∃ c ∈ committed e.output (e.input.charges fingerprint), c.Falls k since
  deriving Decidable

theorem Call.chargedSince_le_one (c : Call) (v : Verdict) (k : Key) (since : ℤ) :
    chargedSince (committed v (c.charges fingerprint)) k since ≤ 1 := by
  have hnodup := c.keys_nodup fingerprint
  have hcount := List.nodup_iff_count_le_one.mp hnodup k
  calc chargedSince (committed v (c.charges fingerprint)) k since
      ≤ chargedSince (c.charges fingerprint) k since := (List.takeWhile_sublist _).countP_le
    _ ≤ (c.charges fingerprint).countP (fun x => x.key == k) := by
        apply List.countP_mono_left
        intro x _ hx
        simpa using (of_decide_eq_true hx).1
    _ = ((c.charges fingerprint).map Charge.key).count k := by
        rw [List.count, List.countP_map]
        rfl
    _ ≤ 1 := hcount

theorem chargedSince_le_passed (h : List Record) (k : Key) (since : ℤ) :
    chargedSince (ledgerOf fingerprint h) k since ≤
      h.countP fun e => PassedSince fingerprint k since e := by
  induction h with
  | nil => exact Nat.le_refl 0
  | cons e h ih =>
    have hone := e.input.chargedSince_le_one fingerprint e.output k since
    rw [ledgerOf, List.flatMap_cons, chargedSince_append, List.countP_cons]
    by_cases hcharged : chargedSince (committed e.output (e.input.charges fingerprint)) k since = 0
    · rw [hcharged]
      exact (Nat.zero_add _).le.trans (ih.trans (Nat.le_add_right _ _))
    · obtain ⟨c, hc, hfalls⟩ := List.countP_pos_iff.mp (Nat.pos_of_ne_zero hcharged)
      have hpassed : PassedSince fingerprint k since e := ⟨c, hc, of_decide_eq_true hfalls⟩
      rw [if_pos (decide_eq_true hpassed), Nat.add_comm]
      exact Nat.add_le_add ih hone

/-- A bucket that refuses a call is within its minute, and has let as many calls pass in
this minute as its limit says. -/
theorem refused_when_spent {h₁ h₂ : List Record} {e : Record} {s : Buckets}
    (hr : Run (perform fingerprint) (fun _ _ => True) ∅ (h₁ ++ e :: h₂) s)
    (hclock : ClockRuns (h₁ ++ e :: h₂)) {k : Key} (hrefused : e.output = .refused k) :
    ∃ b now, e.before.get k = some b ∧ ⟨k, now⟩ ∈ e.input.charges fingerprint ∧
      b.startedAt ≤ now ∧ now < b.startedAt + minute ∧
      k.limit ≤ h₁.countP fun e' => PassedSince fingerprint k b.startedAt e' := by
  have happ : h₁ ++ e :: h₂ = (h₁ ++ [e]) ++ h₂ := by simp
  obtain ⟨m, hr₁, hr₂⟩ := hr.of_append
  obtain ⟨_, heq, _⟩ := hr₂.of_cons
  have hsub : ClockRuns (h₁ ++ [e]) := (happ ▸ hclock).left
  have hall := backed_of_run fingerprint hr₁ hsub.left
  rw [heq] at hsub hrefused ⊢
  obtain ⟨b, now, hget, hmem, hstart, hexp, hfull⟩ :=
    (perform_backed fingerprint hall (hsub.charges fingerprint)).2 k hrefused
  have hb := hall k b hget
  refine ⟨b, now, hget, hmem, hstart, hb.lasts ▸ hexp, ?_⟩
  have hspent : k.limit ≤ chargedSince (ledgerOf fingerprint h₁) k b.startedAt := by
    have hused := hb.used
    omega
  exact hspent.trans (chargedSince_le_passed fingerprint h₁ k b.startedAt)

end Runs

/-! ## A flood of one source -/

def plainFingerprint (_ value : String) : String := value

def sampleCall (source : String) : Call := .http ⟨source, 1000000, 1000000, 1000000, 1000000⟩

theorem sampleCalls_clock (sources : List String) (s : Buckets) :
    ClockRuns (eventsOf (perform plainFingerprint) s (sources.map sampleCall)) := by
  apply List.pairwise_of_forall_mem_list
  have hconst : ∀ t ∈ (eventsOf (perform plainFingerprint) s (sources.map sampleCall)).flatMap
      fun e => e.input.readings, t = 1000000 := by
    intro t ht
    obtain ⟨e, he, ht⟩ := List.mem_flatMap.mp ht
    obtain ⟨source, _, hs⟩ := List.mem_map.mp (input_mem_of_event he)
    rw [← hs] at ht
    simpa [Call.readings, sampleCall, HttpCall.readings] using ht
  intro a ha b hb
  exact Int.le_of_eq ((hconst a ha).trans (hconst b hb).symm)

def floodSources : List String := List.replicate 60 "a"

def floodHistory : List Record :=
  eventsOf (perform plainFingerprint) ∅ (floodSources.map sampleCall)

def floodState : Buckets :=
  stateAfter (perform plainFingerprint) ∅ (floodSources.map sampleCall)

def otherSource : Record := eventOf (perform plainFingerprint) floodState (sampleCall "b")

set_option maxRecDepth 4000 in
theorem flood_outputs : floodHistory.map Event.output =
    List.replicate 20 .admitted ++ List.replicate 40 (.refused (.httpSource "a")) := by decide

set_option maxRecDepth 4000 in
theorem otherSource_refused : otherSource.output = .refused .httpInstallation := by decide

theorem flood_run : Run (perform plainFingerprint) (fun _ _ => True) ∅ (floodHistory ++ [otherSource])
    (perform plainFingerprint floodState (sampleCall "b")).2 := by
  have hflood : Run (perform plainFingerprint) (fun _ _ => True) ∅ floodHistory floodState :=
    run_of_inputs ∅ fun _ _ _ => trivial
  exact .snoc (sampleCall "b") hflood trivial

theorem flood_clock : ClockRuns (floodHistory ++ [otherSource]) := by
  have hall := sampleCalls_clock (floodSources ++ ["b"]) ∅
  rw [List.map_append, List.map_singleton, eventsOf_append] at hall
  exact hall

/-- The calls that the source's own bucket refused have used up the budget of the
installation. -/
theorem refused_calls_spend_installation :
    Run (perform plainFingerprint) (fun _ _ => True) ∅ (floodHistory ++ [otherSource])
        (perform plainFingerprint floodState (sampleCall "b")).2 ∧
      ClockRuns (floodHistory ++ [otherSource]) ∧
      otherSource.output = .refused .httpInstallation ∧
      (floodHistory.map Event.output).count .admitted = 20 ∧ Key.httpInstallation.limit = 60 := by
  refine ⟨flood_run, flood_clock, otherSource_refused, ?_, rfl⟩
  rw [flood_outputs]
  rfl

theorem flood_passes_installation : ∃ b, floodState.get .httpInstallation = some b ∧
    60 ≤ floodHistory.countP fun e =>
      PassedSince plainFingerprint .httpInstallation b.startedAt e := by
  obtain ⟨b, _, hget, _, _, _, hcount⟩ :=
    refused_when_spent plainFingerprint flood_run flood_clock otherSource_refused
  dsimp only [otherSource, eventOf] at hget
  exact ⟨b, hget, hcount⟩

end WaitingRoom.Admin
