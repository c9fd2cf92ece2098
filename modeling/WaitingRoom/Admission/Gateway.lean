import WaitingRoom.Admission.Token
import WaitingRoom.Queue.Lease

/-!
# Admitted visitors

The coordinators answer every successful claim with a token, and a gateway
admits who shows one that it accepts. With the clock skew of 30 s that all rooms
are configured with, the lease of a ticket outlasts its token.
-/

namespace WaitingRoom.Admission

open Queue

set_option autoImplicit false

variable {x : Codec}

/-- The tokens the claims of a run were answered with; `coordinator` is the one
that made the call of an event. -/
def issuedTokens (coordinator : QueueEvent → Coordinator x) (es : List QueueEvent) :
    List (Token x) :=
  es.flatMap fun ev =>
    (claimedAt ev.input.epoch ev.input.room [ev]).map (coordinator ev).token

/-- The different admission ids that a gateway accepts at `now`. -/
def acceptedIds (g : Gateway x) (tokens : List (Token x)) (now : Nat) : List String :=
  ((tokens.filterMap fun token => g.verifyAdmission token now).map Claims.jti).dedup

variable {coordinator : QueueEvent → Coordinator x} {g : Gateway x} {es : List QueueEvent}
  {db : QueueDb} {now : Nat}

theorem lease_of_accepted (hr : SkewedRun 30000 es db)
    (hrooms : ∀ ev, (coordinator ev).binding.room = ev.input.room)
    (hnow : ∀ ev ∈ es, ev.input.env.now ≤ now) {token : Token x}
    (htoken : token ∈ issuedTokens coordinator es) {claims : Claims}
    (haccepted : g.verifyAdmission token now = some claims) :
    ∃ id t, (db.room g.binding.epoch g.binding.room).tickets.get id = some t ∧
      t.jti = claims.jti ∧ t.state = .admitted ∧
      (db.room g.binding.epoch g.binding.room).leases.get id =
        some (score (t.admissionUntil + 30000 : Nat)) := by
  obtain ⟨ev, hev, hmap⟩ := List.mem_flatMap.mp htoken
  obtain ⟨t, ht, rfl⟩ := List.mem_map.mp hmap
  obtain ⟨hjti, hroom, hepoch, hlive⟩ := accepted_of_verifyAdmission haccepted
  rw [hrooms] at hroom
  have hmem : t ∈ claimedAt ev.input.epoch ev.input.room es := mem_shown.mpr ⟨ev, hev, ht⟩
  rw [claimed_epoch (queueRun_of_skewed hr) t hmem] at hepoch
  rw [hroom, hepoch] at hmem
  have hleased := run_leased hr hnow g.binding.epoch g.binding.room
  obtain ⟨hstate, hrow | hdue⟩ := hleased.kept t hmem
  · refine ⟨t.id, t, hrow, hjti.symm, hstate, ?_⟩
    have hs := run_synced hr g.binding.epoch
    have hopened : (db.room g.binding.epoch g.binding.room).config ≠ none := by
      intro hc
      simp [hs.unopened _ hc] at hrow
    obtain ⟨c, hc⟩ := Option.ne_none_iff_exists'.mp hopened
    have hlease := (hs.synced _ c hc).tickets.leases t.id
    rw [Db.keys_room, hrow, Option.bind_some, Ticket.leaseScore, hleased.skewed c hc] at hlease
    simpa [hstate, Ticket.deadline] using hlease
  · omega

/-- At every moment that is not before a call of the run, the tokens a gateway
accepts have at most as many different ids as its room has leases, the leases are
within the cap in force, and every accepted token belongs to a ticket whose lease
is not free yet. -/
theorem no_over_admission (hr : SkewedRun 30000 es db)
    (hrooms : ∀ ev, (coordinator ev).binding.room = ev.input.room)
    (hnow : ∀ ev ∈ es, ev.input.env.now ≤ now) :
    (acceptedIds g (issuedTokens coordinator es) now).length ≤
      (db.room g.binding.epoch g.binding.room).leases.size ∧
    (∀ c, (db.room g.binding.epoch g.binding.room).config = some c →
      (db.room g.binding.epoch g.binding.room).leases.size ≤ c.leaseCap) ∧
    (∀ token ∈ issuedTokens coordinator es, ∀ claims,
      g.verifyAdmission token now = some claims →
      ∃ id t, (db.room g.binding.epoch g.binding.room).tickets.get id = some t ∧
        t.jti = claims.jti ∧ t.state = .admitted ∧
        (db.room g.binding.epoch g.binding.room).leases.get id =
          some (score (t.admissionUntil + 30000 : Nat))) := by
  refine ⟨?_, (run_leased hr hnow _ _).capped, fun token htoken claims haccepted =>
    lease_of_accepted hr hrooms hnow htoken haccepted⟩
  -- different ids have different rows, and every row has its own lease
  let jtiOf (id : String) : String :=
    (((db.room g.binding.epoch g.binding.room).tickets.get id).map Ticket.jti).getD ""
  apply Table.length_le_size_of_image (f := jtiOf) (List.nodup_dedup _)
  intro jti hjti
  obtain ⟨claims, hclaims, rfl⟩ := List.mem_map.mp (List.mem_dedup.mp hjti)
  obtain ⟨token, htoken, haccepted⟩ := List.mem_filterMap.mp hclaims
  obtain ⟨id, t, hrow, hid, -, hlease⟩ := lease_of_accepted hr hrooms hnow htoken haccepted
  exact ⟨id, _, hlease, by simp [jtiOf, hrow, hid]⟩

def plainCodec : Codec where
  Private := Unit
  Public := Unit
  Payload := Claims
  Signature := Unit
  size := fun _ _ => 0
  marshal := id
  unmarshal := some
  sign := fun _ _ => ()
  verify := fun _ _ _ => true
  unmarshal_marshal := fun _ => rfl

def plainBinding (room : String) : Binding plainCodec where
  room := room
  audience := "audience"
  kid := "kid"
  epoch := 1

def plainCoordinator (ev : QueueEvent) : Coordinator plainCodec :=
  ⟨plainBinding ev.input.room, (), 60000⟩

def plainGateway : Gateway plainCodec := ⟨plainBinding "room", ()⟩

theorem sample_skewed : SkewedRun 30000 (eventsOf exec {} sampleSteps) sampleDb := by
  have wf : ∀ s ∈ sampleSteps, ∀ _ : QueueDb, s.call.WellFormed ∧ s.call.Skewed 30000 := by
    have skewed : ∀ s ∈ sampleSteps, s.call.Skewed 30000 := by
      simp [sampleSteps, Call.Skewed, sampleConfig]
    exact fun s hs db => ⟨sampleSteps_wellFormed s hs db, skewed s hs⟩
  exact run_of_inputs {} wf

/-- The visitor of the sample run is let in for 30 s after the end of the admission. -/
theorem sample_admission :
    acceptedIds plainGateway (issuedTokens plainCoordinator (eventsOf exec {} sampleSteps)) 1089999 =
      ["admission:1:1"] ∧
    (acceptedIds plainGateway
      (issuedTokens plainCoordinator (eventsOf exec {} sampleSteps)) 1089999).length ≤
      (sampleDb.room 1 "room").leases.size := by
  have hnow : ∀ ev ∈ eventsOf exec {} sampleSteps, ev.input.env.now ≤ 1089999 := by
    simp [eventsOf, eventOf, sampleSteps]
  exact ⟨by decide +kernel,
    (no_over_admission (g := plainGateway) sample_skewed (fun _ => rfl) hnow).1⟩

end WaitingRoom.Admission
