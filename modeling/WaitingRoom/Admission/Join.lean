import WaitingRoom.Keyring.Ring
import WaitingRoom.Queue.Replay
import WaitingRoom.Admission.Gateway

/-!
# The answer to a join

The coordinator gives every join a random token, whose hash is the id of the
ticket, and stores the token with the join, encrypted. It always answers with what
is stored: the token is decrypted, and the times of the answer are those of the
stored snapshot. So the answer does not depend on which of two joins came first.
-/

namespace WaitingRoom.Admission

open Queue Keyring

set_option autoImplicit false

variable {x : Codec} {a : Aead}

/-- The packages that a coordinator answers joins with: `valkeystore.Hash`, and the
time format of a millisecond. -/
structure Platform where
  hash : Bytes → String
  formatMilli : Nat → String

def Platform.hashText (w : Platform) (s : String) : String := w.hash (Doc.utf8 s.toList)

/-- What the coordinator of one room joins visitors with. -/
structure JoinCoordinator (x : Codec) (a : Aead) where
  keys : Option (KeyRing x a)
  replay : a.Secret
  room : String
  epoch : Nat
  idleTTL : Nat

namespace JoinCoordinator

variable (w : Platform) (c : JoinCoordinator x a) (key target : String)

def aad : String := w.hashText key ++ ":" ++ w.hashText target

def boundAAD : String := c.room ++ ":" ++ toString c.epoch ++ ":" ++ aad w key target

def sealReplay (nonce token : Bytes) : String :=
  match c.keys with
  | some ring => ring.current.sealText .replay nonce token (c.boundAAD w key target)
  | none => String.ofList (sealBytes c.replay nonce token (aad w key target))

def openReplay (replay : String) : Option Bytes :=
  match c.keys with
  | some ring => ring.openText .replay replay (c.boundAAD w key target) (aad w key target)
  | none =>
    match Base64.decode replay.toList with
    | none => none
    | some data =>
      if data.length < 12 then none
      else a.decrypt c.replay (data.take 12) (data.drop 12) (aad w key target)

/-- `queuedWithTTL`, as `json.Encoder` writes it: the keys in order, and a line break. -/
def queuedWithTTL (t : Ticket) (token : Bytes) (idleTTL : Nat) : List Char :=
  let null := ['n', 'u', 'l', 'l']
  let text := Doc.quote Doc.compact
  Doc.object Doc.compact ([
    ("apiVersion", text "v1"),
    ("estimatedWaitSeconds", null),
    ("expiresAt", text (w.formatMilli (t.joinedAt + idleTTL))),
    ("heartbeatAfterMs", Doc.printInt (max 1 (min 300000 (idleTTL / 2)) : Nat)),
    ("pollAfterMs", Doc.printInt 3000),
    ("roomId", text c.room),
    ("state", text "queued"),
    ("statusUrl", text ("/_wr/v1/rooms/" ++ c.room ++ "/status"))] ++
    (if token = [] then [] else [("ticketToken", Doc.quoteBytes Doc.compact token)]) ++
    [("usersAhead", null)]) ++ ['\n']

/-- The answer to a join: its status and what it carries. -/
inductive Response
  | problem (status : Nat) (code : String)
  | queued (absoluteUntil : Nat) (body : List Char)

/-- The rest of `join`, once the queue has answered. -/
def answerJoin (answer : JoinAnswer) : Response :=
  match c.openReplay w key target answer.replay with
  | none => .problem 503 "QUEUE_UNAVAILABLE"
  | some token =>
    if w.hash token ≠ answer.ticket.id then .problem 503 "QUEUE_UNAVAILABLE"
    else
      .queued answer.ticket.absoluteUntil
        (match answer.join with
          | none => c.queuedWithTTL w answer.ticket token c.idleTTL
          | some snap => c.queuedWithTTL w snap.ticket token snap.idleTTL)

/-- The queue command of a join, with the id of its token and the replay. -/
def joinStep (env : Env) (id replay primary : String) (fence : Nat) : Step Queue.Call :=
  ⟨c.epoch, c.room, env,
    .command (.join (w.hashText key) (w.hashText target) id replay) primary fence⟩

variable {w key target} {c}

theorem answerJoin_congr {c' : JoinCoordinator x a} {answer answer' : JoinAnswer} {n : Nat}
    {body : List Char} {snap : JoinSnapshot} (keys : c'.keys = c.keys)
    (replay : c'.replay = c.replay) (room : c'.room = c.room) (epoch : c'.epoch = c.epoch)
    (id : answer'.ticket.id = answer.ticket.id) (stored : answer'.replay = answer.replay)
    (snapshot : answer.join = some snap) (same : answer'.join = answer.join)
    (h : c.answerJoin w key target answer = .queued n body) :
    ∃ n', c'.answerJoin w key target answer' = .queued n' body := by
  have hopen : c'.openReplay w key target answer'.replay = c.openReplay w key target answer.replay := by
    simp only [openReplay, boundAAD, keys, replay, room, epoch, stored]
  have hbody : ∀ t token n, c'.queuedWithTTL w t token n = c.queuedWithTTL w t token n := by
    intro t token n
    simp only [queuedWithTTL, room]
  unfold answerJoin at h ⊢
  rw [hopen, id, same]
  split at h
  · exact absurd h (by simp)
  · rename_i token htoken
    split at h
    · exact absurd h (by simp)
    · rename_i hid
      rw [if_neg hid]
      obtain ⟨-, rfl⟩ := Response.queued.inj h
      refine ⟨answer'.ticket.absoluteUntil, ?_⟩
      rw [snapshot]
      simp only [hbody]

/-- Coordinators of one room and epoch that hold the same secrets. -/
structure SameSecrets (c c' : JoinCoordinator x a) : Prop where
  keys : c'.keys = c.keys
  replay : c'.replay = c.replay
  room : c'.room = c.room
  epoch : c'.epoch = c.epoch

/-- Two joins with one key and target, the second before the end of the retention of
the key, are given the same ticket id, replay and snapshot and the same body, and the
second adds nothing to the room. With another target the second never succeeds, and
is a conflict wherever it would have succeeded with the first one's. -/
theorem joins_replayed (w : Platform) {c c' : JoinCoordinator x a} (same : SameSecrets c c')
    {es es' : List QueueEvent} {db db' : QueueDb} (hr : QueueRun es db) {env : Env}
    {key target id replay primary : String} {fence : Nat} {answer : JoinAnswer}
    (first : joinAnswer (exec db (c.joinStep w key target env id replay primary fence)).1 =
      some answer)
    (hr' : RunFrom (exec db (c.joinStep w key target env id replay primary fence)).2 es' db')
    (env' : Env)
    (retained : ∀ s, ((exec db (c.joinStep w key target env id replay primary fence)).2.room
      c.epoch c.room).idemExpiry.get (w.hashText key) = some s → score env'.now < s)
    (id' replay' primary' : String) (fence' : Nat) :
    (∀ answer', joinAnswer
        (exec db' (c'.joinStep w key target env' id' replay' primary' fence')).1 = some answer' →
      answer'.ticket.id = answer.ticket.id ∧ answer'.replay = answer.replay ∧
      answer'.join = answer.join ∧
      (∀ n body, c.answerJoin w key target answer = .queued n body →
        ∃ n', c'.answerJoin w key target answer' = .queued n' body) ∧
      NothingAdded (db'.room c.epoch c.room)
        ((exec db' (c'.joinStep w key target env' id' replay' primary' fence')).2.room
          c.epoch c.room)) ∧
    (∀ target', w.hashText target' ≠ w.hashText target → Hashed (w.hashText target') →
      joinAnswer (exec db' (c'.joinStep w key target' env' id' replay' primary' fence')).1 = none ∧
      ∀ answer', joinAnswer
          (exec db' (c'.joinStep w key target env' id' replay' primary' fence')).1 = some answer' →
        (exec db' (c'.joinStep w key target' env' id' replay' primary' fence')).1 =
          .error .conflict) := by
  have wf : (c.joinStep w key target env id replay primary fence).call.WellFormed := trivial
  have hrun := hr.snoc _ wf
  obtain ⟨i, s, hrow, hexpiry, byRow⟩ := join_leaves_row hr wf
    ⟨rfl, rfl, id, replay, primary, fence, rfl⟩ first
  have live := retained s hexpiry
  have kept' := run_rowKept hrun hr' (.inl ⟨hrow, hexpiry⟩)
  have hrun' := hrun.append hr'
  have hstep : ∀ t, c'.joinStep w key t env' id' replay' primary' fence' =
      ⟨c.epoch, c.room, env', .command (.join (w.hashText key) (w.hashText t) id' replay') primary'
        fence'⟩ := by
    intro t
    rw [joinStep, same.room, same.epoch]
  obtain ⟨-, snap, -, hsnap, -⟩ := (run_replayable hrun c.epoch c.room).rows _ i hrow
  refine ⟨fun answer' hanswer => ?_, fun target' hne hashed => ⟨?_, fun answer' hanswer => ?_⟩⟩
  · rw [hstep] at hanswer ⊢
    obtain ⟨byRow', added⟩ := join_again hrun' kept' live hanswer
    have hid := byRow'.ticket.trans byRow.ticket.symm
    have hreplay := byRow'.replay.trans byRow.replay.symm
    have hjoin := byRow'.join.trans byRow.join.symm
    refine ⟨hid, hreplay, hjoin, fun n body hbody => ?_, ?_⟩
    · exact answerJoin_congr same.keys same.replay same.room same.epoch hid hreplay
        (byRow.join.trans hsnap) hjoin hbody
    · have hroom : (exec db' ⟨c.epoch, c.room, env', .command (.join (w.hashText key)
        (w.hashText target) id' replay') primary' fence'⟩).2.room c.epoch c.room =
          (wrR6Command (db'.keys c.epoch c.room) env' (.join (w.hashText key) (w.hashText target)
            id' replay') primary' fence').2.room := Db.set_room_self ..
      rw [hroom]
      exact added
  · rw [hstep]
    cases hanswer : joinAnswer (exec db' ⟨c.epoch, c.room, env', .command (.join (w.hashText key)
        (w.hashText target') id' replay') primary' fence'⟩).1 with
    | none => rfl
    | some answer' =>
      obtain ⟨byRow', -⟩ := join_again hrun' kept' live hanswer
      exact absurd (byRow'.fingerprint.symm.trans byRow.fingerprint) hne
  · rw [hstep] at hanswer ⊢
    rw [← byRow.fingerprint] at hanswer hne
    exact join_conflict hrun' kept' live (Ne.symm hne) hashed hanswer

end JoinCoordinator

section Sample

def plainAead : Aead where
  Secret := Unit
  encrypt := fun _ _ plain _ => plain ++ List.replicate 16 0
  decrypt := fun _ _ data _ => some (data.take (data.length - 16))
  decrypt_encrypt := fun _ _ plain _ => by simp
  length_encrypt := fun _ _ plain _ => by simp

def samplePlatform : Platform := ⟨fun _ => sampleId, toString⟩

def sampleCoordinator : JoinCoordinator plainCodec plainAead := ⟨none, (), "room", 1, 60000⟩

def laterCoordinator : JoinCoordinator plainCodec plainAead := ⟨none, (), "room", 1, 30000⟩

def sampleReplay : String :=
  sampleCoordinator.sealReplay samplePlatform "key" "/shop" (List.replicate 12 0) [116]

def openedDb : QueueDb := stateAfter exec {} (sampleSteps.take 2)

def joinedDb : QueueDb := (exec openedDb (sampleCoordinator.joinStep samplePlatform "key" "/shop"
  ⟨1000002, "primary"⟩ sampleId sampleReplay "primary" 1)).2

def claimedDb : QueueDb := stateAfter exec joinedDb (sampleSteps.drop 3)

def sampleTicket : Ticket := ⟨sampleId, 1, .waiting, 1, 1000002, 1060002, 1120002, 0, 0, "", none⟩

def sampleAnswer : JoinAnswer := ⟨sampleTicket, sampleReplay, some ⟨sampleTicket, 60000⟩⟩

/-- The token comes back after the ticket was promoted and claimed. -/
theorem sample_rejoin : ∃ answer body n,
    joinAnswer (exec claimedDb (laterCoordinator.joinStep samplePlatform "key" "/shop"
      ⟨1000005, "primary"⟩ sampleId "" "primary" 1)).1 = some answer ∧
    answer.ticket.state = .admitted ∧ answer.join = some ⟨sampleTicket, 60000⟩ ∧
    sampleCoordinator.answerJoin samplePlatform "key" "/shop" sampleAnswer = .queued 1120002 body ∧
    laterCoordinator.answerJoin samplePlatform "key" "/shop" answer = .queued n body := by
  have hr : QueueRun (eventsOf exec {} (sampleSteps.take 2)) openedDb :=
    run_of_inputs {} fun s hs => sampleSteps_wellFormed s (List.mem_of_mem_take hs)
  have hr' : RunFrom joinedDb (eventsOf exec joinedDb (sampleSteps.drop 3)) claimedDb :=
    run_of_inputs joinedDb fun s hs => sampleSteps_wellFormed s (List.mem_of_mem_drop hs)
  have hfirst : joinAnswer (exec openedDb (sampleCoordinator.joinStep samplePlatform "key" "/shop"
      ⟨1000002, "primary"⟩ sampleId sampleReplay "primary" 1)).1 = some sampleAnswer := by
    decide +kernel
  have hretained : ∀ s, (joinedDb.room 1 "room").idemExpiry.get sampleId = some s →
      score (1000005 : Nat) < s := by
    have hexpiry : (joinedDb.room 1 "room").idemExpiry.get sampleId = some (score 1600002) := by
      decide +kernel
    rintro s hs
    rw [hexpiry] at hs
    obtain rfl := Option.some.inj hs
    exact score_lt_score.mpr (by decide)
  have hagain : joinAnswer (exec claimedDb (laterCoordinator.joinStep samplePlatform "key" "/shop"
      ⟨1000005, "primary"⟩ sampleId "" "primary" 1)).1 =
      some ⟨⟨sampleId, 1, .admitted, 1, 1000002, 1060002, 1120002, 1030003, 1060003,
        "admission:1:1", some 1000003⟩, sampleReplay, some ⟨sampleTicket, 60000⟩⟩ := by
    decide +kernel
  have hopen : sampleCoordinator.openReplay samplePlatform "key" "/shop" sampleReplay =
      some [116] := by decide +kernel
  have hbody : ∃ body, sampleCoordinator.answerJoin samplePlatform "key" "/shop" sampleAnswer =
      .queued 1120002 body := by
    rw [JoinCoordinator.answerJoin, sampleAnswer, hopen]
    exact ⟨_, rfl⟩
  obtain ⟨body, hbody⟩ := hbody
  have secrets : JoinCoordinator.SameSecrets sampleCoordinator laterCoordinator :=
    ⟨rfl, rfl, rfl, rfl⟩
  obtain ⟨-, -, hjoin, hsame, -⟩ := (JoinCoordinator.joins_replayed samplePlatform secrets hr hfirst
    hr' ⟨1000005, "primary"⟩ hretained sampleId "" "primary" 1).1 _ hagain
  obtain ⟨n, hsame⟩ := hsame _ body hbody
  exact ⟨_, body, n, hagain, rfl, hjoin, hbody, hsame⟩

end Sample

end WaitingRoom.Admission
