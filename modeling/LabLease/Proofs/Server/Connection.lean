/-
What a connection does over all of its time, whatever comes in on it and
whatever happens at the coordinator in between.

A visit is one thing that comes in, and the coordinator as it is then:
others have had their turns since the last one, so nothing is assumed of
it, nor of how a line that is no request is found fault with. What a
connection has done with its visits is its course (`Connection.course`),
and what can be said of every course is collected in `Orderly`: lines are
answered one by one in the order in which they came, nobody is served
before they have registered, and every request is executed once, for the
session of the connection (`course_orderly`).
-/
import LabLease.Server.Connection

namespace LabLease

/-- The number that a line is answered with. -/
def ReadLine.requestId : ReadLine → Nat
  | .line s =>
    match parseFrame RequestFrame.ofJson? s with
    | .ok frame => frame.id
    | .error _ => salvageId s
  | .tooLarge => 0

/-- The request that a line is. -/
def ReadLine.request? : ReadLine → Option RequestFrame
  | .line s => (parseFrame RequestFrame.ofJson? s).toOption
  | .tooLarge => none

/-- The number of the request that a frame answers. -/
def ServerFrame.answers? : ServerFrame → Option Nat
  | .response id _ | .error id .. => some id
  | .eventBatch _ | .resync _ | .shutdownRequest _ => none

@[simp] theorem ServerFrame.answers?_ofResult (id : Nat)
    (r : Except Refusal Reply) : (ofResult id r).answers? = some id := by
  cases r <;> rfl

@[simp] theorem ServerFrame.answers?_ofPush (p : Push) :
    (ofPush p).answers? = none := by
  cases p <;> rfl

namespace Server

open Coordinator (Hub)

-- ================================================================ courses

/-- Something that comes in, the coordinator at that time, and what is said
to be wrong with a text. -/
structure Visit where
  hub : Hub
  now : Moment
  cause : String → String
  incoming : Incoming

/-- A visit, and how far the connection had come before it. -/
structure Entry where
  stage : Connection
  visit : Visit

/-- What a connection has the coordinator do. -/
inductive Deed where
  | register (name : String) (role : Role)
  | call (session : SessionId) (op : Operation)
  /-- The connection of a session is gone. -/
  | leave (session : SessionId)

def Deed.perform (now : Moment) (h : Hub) : Deed → Hub
  | .register name role => (h.register name role h.mailboxCapacity now).2
  | .call session op => (h.call session op now).2
  | .leave session => (h.connectionClosed session now).2.abandon session

/-- The line that comes in. -/
def Incoming.line? : Incoming → Option ReadLine
  | .line l => some l
  | .push _ | .mailboxClosed | .ended => none

/-- What a line comes to. -/
def Connection.answer (c : Connection) (cause : String → String) (h : Hub)
    (now : Moment) : ReadLine → Except Refusal Reply
  | .tooLarge => .error oversized
  | .line s =>
    match parseFrame RequestFrame.ofJson? s, c with
    | .error fault, _ => .error (malformed cause fault)
    | .ok ⟨_, op⟩, .serving session => (h.call session op now).1
    | .ok ⟨_, .register name role⟩, _ =>
      (h.register name role h.mailboxCapacity now).1.map fun r =>
        .registered r.1 r.2
    | .ok _, _ => .error (.staleSession "register first")

/-- What a connection asks the coordinator for on a request. -/
def Connection.asks : Connection → Option RequestFrame → List Deed
  | .greeting, some ⟨_, .register name role⟩ => [.register name role]
  | .serving session, some ⟨_, op⟩ => [.call session op]
  | _, _ => []

/-- What the coordinator is told when the connection of a session
closes. -/
def Connection.leaves : Connection → Connection → List Deed
  | .serving session, .closed => [.leave session]
  | _, _ => []

namespace Entry

def outcome (e : Entry) : List ServerFrame × Connection × Hub :=
  e.stage.step e.visit.cause e.visit.hub e.visit.now e.visit.incoming

/-- What is sent. -/
def frames (e : Entry) : List ServerFrame := e.outcome.1

/-- How far the connection has come then. -/
def next (e : Entry) : Connection := e.outcome.2.1

/-- The coordinator after it. -/
def hub (e : Entry) : Hub := e.outcome.2.2

/-- The line that is processed. A closed connection processes none. -/
def line? (e : Entry) : Option ReadLine :=
  if e.stage = .closed then none else e.visit.incoming.line?

/-- The request that is processed. -/
def request? (e : Entry) : Option RequestFrame :=
  e.line?.bind ReadLine.request?

/-- All that the coordinator does in consequence. -/
def deeds (e : Entry) : List Deed :=
  e.stage.asks e.request? ++ e.stage.leaves e.next

/-- What ends a connection. -/
inductive Ends (e : Entry) : Prop
  | stream (h : e.visit.incoming = .ended)
  | oversized (h : e.visit.incoming = .line .tooLarge)
      (hlast : e.frames = [.ofResult 0 (.error Connection.oversized)])
  | disconnect {session : SessionId} {id : Nat} {reply : Reply}
      (hstage : e.stage = .serving session)
      (h : e.request? = some ⟨id, .disconnect⟩)
      (hdone : (e.visit.hub.call session .disconnect e.visit.now).1
        = .ok reply)
  | shutdown {session : SessionId} {reason : String}
      (hstage : e.stage = .serving session)
      (h : e.visit.incoming = .push (.shutdown reason))
  | mailbox {session : SessionId} (hstage : e.stage = .serving session)
      (h : e.visit.incoming = .mailboxClosed)

end Entry

/-- What becomes of the visits to a connection, one after the other. -/
def Connection.course (c : Connection) : List Visit → List Entry
  | [] => []
  | v :: rest => ⟨c, v⟩ :: (Entry.next ⟨c, v⟩).course rest

-- ============================================================= each visit

namespace Connection

variable (cause : String → String) (h : Hub) (now : Moment)
  (session : SessionId)

theorem step_closed (i : Incoming) :
    Connection.closed.step cause h now i = ([], .closed, h) :=
  rfl

/-- A line on a connection without a session. -/
theorem greet_spec (s : String) :
    (greet cause h now s).1 = .ofResult (ReadLine.line s).requestId
        (Connection.greeting.answer cause h now (.line s))
      ∧ (greet cause h now s).2.2
        = (Connection.greeting.asks (ReadLine.line s).request?).foldl
          (Deed.perform now) h
      ∧ (greet cause h now s).2.1 ≠ .closed
      ∧ ∀ session, (greet cause h now s).2.1 = .serving session
        ↔ ∃ id name role number,
          (ReadLine.line s).request? = some ⟨id, .register name role⟩
            ∧ (h.register name role h.mailboxCapacity now).1
              = .ok (session, number) := by
  simp only [greet, answer, ReadLine.requestId, ReadLine.request?]
  cases hparse : parseFrame RequestFrame.ofJson? s with
  | error fault =>
    refine ⟨rfl, rfl, nofun, fun session => ⟨nofun, ?_⟩⟩
    rintro ⟨_, _, _, _, ⟨⟩, _⟩
  | ok f =>
    obtain ⟨id, op⟩ := f
    cases op with
    | register name role =>
      simp only [Except.toOption, asks, List.foldl_cons, List.foldl_nil,
        Deed.perform]
      cases hregister : h.register name role h.mailboxCapacity now with
      | mk result hub =>
        cases result with
        | error e =>
          refine ⟨rfl, rfl, nofun, fun session => ⟨nofun, ?_⟩⟩
          rintro ⟨_, _, _, _, ⟨⟩, hok⟩
          rw [hregister] at hok
          cases hok
        | ok r =>
          refine ⟨rfl, rfl, nofun, fun session => ⟨fun heq => ?_, ?_⟩⟩
          · cases heq
            exact ⟨id, name, role, r.2, rfl, congrArg Prod.fst hregister⟩
          · rintro ⟨_, _, _, _, ⟨⟩, hok⟩
            rw [hregister] at hok
            cases hok
            rfl
    | _ =>
      refine ⟨rfl, rfl, nofun, fun session => ⟨nofun, ?_⟩⟩
      rintro ⟨_, _, _, _, ⟨⟩, _⟩

/-- A line of a session. -/
theorem serve_spec (s : String) :
    (serve cause h session now s).1 = .ofResult (ReadLine.line s).requestId
        ((Connection.serving session).answer cause h now (.line s))
      ∧ (serve cause h session now s).2.2
        = ((Connection.serving session).asks
          (ReadLine.line s).request?).foldl (Deed.perform now) h
      ∧ ((serve cause h session now s).2.1 = .serving session
        ∨ (serve cause h session now s).2.1 = .closed
          ∧ ∃ id reply,
            (ReadLine.line s).request? = some ⟨id, .disconnect⟩
              ∧ (h.call session .disconnect now).1 = .ok reply) := by
  simp only [serve, answer, ReadLine.requestId, ReadLine.request?]
  cases hparse : parseFrame RequestFrame.ofJson? s with
  | error fault => exact ⟨rfl, rfl, Or.inl rfl⟩
  | ok f =>
    obtain ⟨id, op⟩ := f
    refine ⟨rfl, rfl, ?_⟩
    dsimp only
    split
    · next hlast =>
      rw [Bool.and_eq_true, decide_eq_true_eq] at hlast
      obtain ⟨rfl, hok⟩ := hlast
      refine Or.inr ⟨rfl, id, ?_⟩
      cases hcall : (h.call session .disconnect now).1 with
      | error e =>
        rw [hcall] at hok
        cases hok
      | ok reply => exact ⟨reply, rfl, rfl⟩
    · exact Or.inl rfl

/-- What a session's connection does is what it makes of the visit, and
when it closes the coordinator is told. -/
theorem step_serving (i : Incoming) :
    (Connection.serving session).step cause h now i
      = (((Connection.serving session).react cause h now i).1,
        ((Connection.serving session).react cause h now i).2.1,
        ((Connection.serving session).leaves
            ((Connection.serving session).react cause h now i).2.1).foldl
          (Deed.perform now)
          ((Connection.serving session).react cause h now i).2.2) := by
  unfold step
  rcases (Connection.serving session).react cause h now i with
    ⟨frames, c, hub⟩
  cases c <;> rfl

/-- A request of a session, unless it ends it. -/
theorem step_request {s : String} {f : RequestFrame}
    (hparse : parseFrame RequestFrame.ofJson? s = .ok f)
    (hstays : f.request ≠ .disconnect) :
    (Connection.serving session).step cause h now (.line (.line s))
      = ([.ofResult f.id (h.call session f.request now).1],
        .serving session, (h.call session f.request now).2) := by
  have hserve : serve cause h session now s
      = (.ofResult f.id (h.call session f.request now).1,
        .serving session, (h.call session f.request now).2) := by
    unfold serve
    rw [hparse]
    dsimp only
    rw [decide_eq_false hstays, Bool.false_and,
      if_neg Bool.false_ne_true]
  rw [step_serving]
  unfold react
  dsimp only
  rw [hserve]
  rfl

/-- What a session's connection makes of a visit. -/
theorem react_serving (i : Incoming) :
    ((Connection.serving session).react cause h now i).2.2
        = ((Connection.serving session).asks
          (i.line?.bind ReadLine.request?)).foldl (Deed.perform now) h
      ∧ (((Connection.serving session).react cause h now i).2.1
          = .serving session
        ∨ ((Connection.serving session).react cause h now i).2.1 = .closed) := by
  cases i with
  | line l =>
    cases l with
    | line s =>
      obtain ⟨-, hhub, hnext⟩ := serve_spec cause h now session s
      exact ⟨hhub, hnext.imp_right And.left⟩
    | tooLarge => exact ⟨rfl, Or.inr rfl⟩
  | push p =>
    cases p with
    | shutdown reason => exact ⟨rfl, Or.inr rfl⟩
    | _ => exact ⟨rfl, Or.inl rfl⟩
  | _ => exact ⟨rfl, Or.inr rfl⟩

end Connection

namespace Entry

variable {e : Entry} {session : SessionId}

theorem line?_of_open (h : e.stage ≠ .closed) :
    e.line? = e.visit.incoming.line? :=
  if_neg h

/-- Every line that is processed is answered, by one frame. -/
theorem frames_of_line {l : ReadLine} (h : e.line? = some l) :
    e.frames = [.ofResult l.requestId
      (e.stage.answer e.visit.cause e.visit.hub e.visit.now l)] := by
  obtain ⟨stage, hub, now, cause, incoming⟩ := e
  unfold line? at h
  split at h
  · cases h
  · next hopen =>
    cases incoming with
    | line l' =>
      cases h
      unfold frames outcome
      cases stage with
      | closed => exact absurd rfl hopen
      | greeting =>
        cases l with
        | line s =>
          exact congrArg (fun f => [f])
            (Connection.greet_spec cause hub now s).1
        | tooLarge => rfl
      | serving session =>
        dsimp only
        rw [Connection.step_serving]
        cases l with
        | line s =>
          exact congrArg (fun f => [f])
            (Connection.serve_spec cause hub now session s).1
        | tooLarge => rfl
    | _ => cases h

/-- In a session a line that is a request comes to what its operation
comes to. -/
theorem answer_of_request {l : ReadLine} {f : RequestFrame}
    (hl : e.line? = some l) (hstage : e.stage = .serving session)
    (h : e.request? = some f) :
    e.stage.answer e.visit.cause e.visit.hub e.visit.now l
      = (e.visit.hub.call session f.request e.visit.now).1 := by
  unfold request? at h
  rw [hl, Option.bind_some] at h
  rw [hstage]
  cases l with
  | tooLarge => cases h
  | line s =>
    unfold ReadLine.request? at h
    unfold Connection.answer
    dsimp only at h ⊢
    cases hparse : parseFrame RequestFrame.ofJson? s with
    | error fault =>
      rw [hparse] at h
      cases h
    | ok g =>
      rw [hparse] at h
      cases h
      rfl

/-- And apart from that only pushes are sent, to sessions. -/
theorem frames_of_no_line (h : e.line? = none) :
    e.frames = [] ∨ ∃ session p, e.stage = .serving session
      ∧ e.visit.incoming = .push p ∧ e.frames = [.ofPush p] := by
  obtain ⟨stage, hub, now, cause, incoming⟩ := e
  unfold frames outcome
  cases stage with
  | closed => exact Or.inl rfl
  | greeting =>
    cases incoming with
    | line l => cases h
    | _ => exact Or.inl rfl
  | serving session =>
    dsimp only
    rw [Connection.step_serving]
    cases incoming with
    | line l => cases h
    | push p => exact Or.inr ⟨session, p, rfl, rfl, rfl⟩
    | _ => exact Or.inl rfl

/-- One answer for a line, and none for anything else. -/
theorem answers_eq (e : Entry) :
    e.frames.filterMap ServerFrame.answers?
      = (e.line?.map ReadLine.requestId).toList := by
  cases hline : e.line? with
  | some l =>
    rw [frames_of_line hline]
    simp
  | none =>
    rcases frames_of_no_line hline with hnone | ⟨_, p, -, -, hpush⟩
    · rw [hnone]
      rfl
    · rw [hpush]
      simp

/-- The coordinator has done what it was asked to, and nothing else. -/
theorem hub_eq (e : Entry) :
    e.hub = e.deeds.foldl (Deed.perform e.visit.now) e.visit.hub := by
  obtain ⟨stage, hub, now, cause, incoming⟩ := e
  unfold deeds
  rw [List.foldl_append]
  cases stage with
  | closed => rfl
  | greeting =>
    cases incoming with
    | line l =>
      cases l with
      | line s => exact (Connection.greet_spec cause hub now s).2.1
      | tooLarge => rfl
    | _ => rfl
  | serving session =>
    have hreact :=
      (Connection.react_serving cause hub now session incoming).1
    have hrequest : request? ⟨.serving session, hub, now, cause, incoming⟩
        = incoming.line?.bind ReadLine.request? := by
      unfold request?
      rw [line?_of_open (by nofun)]
    have hstep := Connection.step_serving cause hub now session incoming
    rw [hrequest]
    unfold Entry.hub next outcome
    dsimp only
    rw [hstep, ← hreact]

theorem request?_closed (h : e.stage = .closed) : e.request? = none := by
  unfold request? line?
  rw [if_pos h]
  rfl

/-- A closed connection does nothing and stays closed. -/
theorem closed_idle (h : e.stage = .closed) :
    e.frames = [] ∧ e.deeds = [] ∧ e.next = .closed := by
  obtain ⟨stage, hub, now, cause, incoming⟩ := e
  cases h
  exact ⟨rfl, rfl, rfl⟩

/-- A session begins with a line that registers it. -/
theorem next_serving_iff (h : e.stage = .greeting) (session : SessionId) :
    e.next = .serving session ↔ ∃ id name role number,
      e.request? = some ⟨id, .register name role⟩
        ∧ (e.visit.hub.register name role e.visit.hub.mailboxCapacity
          e.visit.now).1 = .ok (session, number) := by
  obtain ⟨stage, hub, now, cause, incoming⟩ := e
  cases h
  have hno : ∀ {c : Connection}, c = .greeting ∨ c = .closed →
      ∀ {r : Option RequestFrame}, r = none →
      (c = .serving session ↔ ∃ id name role number,
        r = some ⟨id, .register name role⟩
          ∧ (hub.register name role hub.mailboxCapacity now).1
            = .ok (session, number)) := by
    rintro c hc r rfl
    refine ⟨?_, ?_⟩
    · rintro rfl
      rcases hc with hc | hc <;> cases hc
    · rintro ⟨_, _, _, _, ⟨⟩, _⟩
  cases incoming with
  | line l =>
    cases l with
    | line s => exact (Connection.greet_spec cause hub now s).2.2.2 session
    | tooLarge => exact hno (Or.inr rfl) rfl
  | ended => exact hno (Or.inr rfl) rfl
  | _ => exact hno (Or.inl rfl) rfl

/-- A connection with a session keeps it until it closes. -/
theorem next_of_serving (h : e.stage = .serving session) :
    e.next = .serving session ∨ e.next = .closed := by
  obtain ⟨stage, hub, now, cause, incoming⟩ := e
  cases h
  unfold next outcome
  dsimp only
  rw [Connection.step_serving]
  exact (Connection.react_serving cause hub now session incoming).2

/-- A connection closes for one of five reasons. -/
theorem ends (hopen : e.stage ≠ .closed) (h : e.next = .closed) :
    e.Ends := by
  obtain ⟨stage, hub, now, cause, incoming⟩ := e
  cases stage with
  | closed => exact absurd rfl hopen
  | greeting =>
    cases incoming with
    | line l =>
      cases l with
      | line s =>
        exact absurd h (Connection.greet_spec cause hub now s).2.2.1
      | tooLarge => exact .oversized rfl rfl
    | ended => exact .stream rfl
    | _ => cases h
  | serving session =>
    unfold next outcome at h
    dsimp only at h
    rw [Connection.step_serving] at h
    cases incoming with
    | line l =>
      cases l with
      | line s =>
        rcases (Connection.serve_spec cause hub now session s).2.2 with
          hstays | ⟨-, id, reply, hrequest, hdone⟩
        · cases hstays.symm.trans h
        · exact .disconnect rfl hrequest hdone
      | tooLarge =>
        have hline := line?_of_open
          (e := ⟨.serving session, hub, now, cause, .line .tooLarge⟩) nofun
        exact .oversized rfl (frames_of_line hline)
    | push p =>
      cases p with
      | shutdown reason => exact .shutdown rfl rfl
      | _ => cases h
    | mailboxClosed => exact .mailbox rfl rfl
    | ended => exact .stream rfl

/-- What is asked for in a session is what is requested. -/
theorem deeds_of_serving (h : e.stage = .serving session) :
    e.deeds = (e.request?.map fun f => Deed.call session f.request).toList
      ++ if e.next = .closed then [.leave session] else [] := by
  unfold deeds
  rw [h]
  congr 1
  · cases e.request? <;> rfl
  · rcases next_of_serving h with hnext | hnext <;> rw [hnext]
    · rfl
    · rfl

/-- Before there is a session the coordinator is asked to register peers,
and for nothing else. -/
theorem deeds_of_greeting (h : e.stage = .greeting) :
    ∀ d ∈ e.deeds, ∃ name role, d = .register name role := by
  unfold deeds
  rw [h]
  show ∀ d ∈ Connection.greeting.asks e.request? ++ [], _
  rw [List.append_nil]
  cases e.request? with
  | none => exact nofun
  | some f =>
    obtain ⟨id, op⟩ := f
    cases op with
    | register name role =>
      intro d hd
      exact ⟨name, role, List.mem_singleton.1 hd⟩
    | _ => exact nofun

theorem frames_of_greeting (h : e.stage = .greeting) :
    ∀ f ∈ e.frames, f.answers? ≠ none := by
  cases hline : e.line? with
  | some l =>
    rw [frames_of_line hline, List.forall_mem_singleton,
      ServerFrame.answers?_ofResult]
    exact nofun
  | none =>
    rcases frames_of_no_line hline with hnone | ⟨_, _, hserving, -⟩
    · rw [hnone]
      exact nofun
    · cases h.symm.trans hserving

end Entry

-- ============================================================ whole courses

namespace Connection

variable {c : Connection} {visits : List Visit} {session : SessionId}
  {e : Entry} {before after : List Entry}

theorem course_closed (h : e ∈ Connection.closed.course visits) :
    e.stage = .closed := by
  induction visits with
  | nil => cases h
  | cons v visits ih =>
    rcases List.mem_cons.1 h with rfl | h
    · rfl
    · exact ih h

/-- In the course of a session there is no other one. -/
theorem course_serving (h : e ∈ (Connection.serving session).course visits) :
    e.stage = .serving session ∨ e.stage = .closed := by
  induction visits with
  | nil => cases h
  | cons v visits ih =>
    rcases List.mem_cons.1 h with rfl | h
    · exact Or.inl rfl
    · rcases Entry.next_of_serving (e := ⟨.serving session, v⟩) rfl with
        hnext | hnext
      · exact ih (hnext ▸ h)
      · exact Or.inr (course_closed (hnext ▸ h))

/-- The lines that are processed are the first ones that come in. -/
theorem course_lines (c : Connection) (visits : List Visit) :
    (c.course visits).filterMap Entry.line?
      <+: visits.filterMap fun v => v.incoming.line? := by
  induction visits generalizing c with
  | nil => exact List.prefix_rfl
  | cons v visits ih =>
    by_cases hopen : c = .closed
    · have hnone : (c.course (v :: visits)).filterMap Entry.line? = [] := by
        refine List.filterMap_eq_nil_iff.2 fun e he => ?_
        unfold Entry.line?
        exact if_pos (course_closed (hopen ▸ he))
      rw [hnone]
      exact List.nil_prefix
    · have hline : Entry.line? ⟨c, v⟩ = v.incoming.line? :=
        Entry.line?_of_open hopen
      rw [course, List.filterMap_cons, List.filterMap_cons, hline]
      cases v.incoming.line? with
      | none => exact ih _
      | some l => exact (List.prefix_cons_inj l).2 (ih _)

/-- Line by line the numbers of the requests are those of the answers. -/
theorem course_answers (course : List Entry) :
    (course.flatMap Entry.frames).filterMap ServerFrame.answers?
      = (course.filterMap Entry.line?).map ReadLine.requestId := by
  induction course with
  | nil => rfl
  | cons e course ih =>
    rw [List.flatMap_cons, List.filterMap_append, ih, Entry.answers_eq,
      List.filterMap_cons]
    cases e.line? <;> rfl

/-- A session's requests are executed one after the other. -/
theorem course_deeds (session : SessionId) (visits : List Visit) :
    (((serving session).course visits).flatMap Entry.deeds)
      = (((serving session).course visits).filterMap Entry.request?).map
          (fun f => Deed.call session f.request)
        ++ if ((serving session).course visits).any (·.next = .closed)
          then [.leave session] else [] := by
  induction visits with
  | nil => rfl
  | cons v visits ih =>
    have hdeeds := Entry.deeds_of_serving (e := ⟨.serving session, v⟩) rfl
    rw [course, List.flatMap_cons, List.filterMap_cons, List.any_cons,
      hdeeds]
    rcases Entry.next_of_serving (e := ⟨.serving session, v⟩) rfl with
      hnext | hnext
    · rw [hnext, if_neg nofun, List.append_nil, ih, decide_eq_false nofun,
        Bool.false_or]
      cases Entry.request? ⟨.serving session, v⟩ <;> rfl
    · have hquiet : ∀ e ∈ Connection.closed.course visits,
          e.deeds = [] ∧ e.request? = none := fun e he =>
        ⟨(Entry.closed_idle (course_closed he)).2.1,
          Entry.request?_closed (course_closed he)⟩
      rw [hnext, if_pos rfl, decide_eq_true rfl, Bool.true_or, if_pos rfl,
        List.flatMap_eq_nil_iff.2 fun e he => (hquiet e he).1,
        List.filterMap_eq_nil_iff.2 fun e he => (hquiet e he).2,
        List.append_nil]
      cases Entry.request? ⟨.serving session, v⟩ <;> rfl

/-- What follows a visit is the course from where it has led. -/
theorem course_after (h : c.course visits = before ++ e :: after) :
    ∃ rest, after = e.next.course rest := by
  induction visits generalizing c before with
  | nil => cases before <;> cases h
  | cons v visits ih =>
    cases before with
    | nil =>
      obtain ⟨rfl, rfl⟩ := List.cons.inj h
      exact ⟨visits, rfl⟩
    | cons b before => exact ih (List.cons.inj h).2

/-- A visit meets the greeting as all visits before it did, or one of them
has led to where it is, unless it is over. -/
theorem course_from (h : Connection.greeting.course visits
      = before ++ e :: after) :
    (e.stage = .greeting
        ∧ ∀ b ∈ before, b.stage = .greeting ∧ b.next = .greeting)
      ∨ ∃ b ∈ before, b.stage = .greeting ∧ b.next ≠ .greeting
        ∧ (e.stage = b.next ∨ e.stage = .closed) := by
  induction visits generalizing before with
  | nil => cases before <;> cases h
  | cons v visits ih =>
    cases before with
    | nil =>
      obtain ⟨rfl, -⟩ := List.cons.inj h
      exact Or.inl ⟨rfl, nofun⟩
    | cons b before =>
      rw [course, List.cons_append] at h
      obtain ⟨hb, htail⟩ := List.cons.inj h
      subst hb
      have hmem : e ∈ (Entry.next ⟨.greeting, v⟩).course visits := by
        rw [htail]
        exact List.mem_append_right _ List.mem_cons_self
      cases hnext : Entry.next ⟨.greeting, v⟩ with
      | greeting =>
        rw [hnext] at htail
        rcases ih htail with ⟨hstage, hall⟩ | ⟨b, hb, hled⟩
        · refine Or.inl ⟨hstage, ?_⟩
          rw [List.forall_mem_cons]
          exact ⟨⟨rfl, hnext⟩, hall⟩
        · exact Or.inr ⟨b, List.mem_cons_of_mem _ hb, hled⟩
      | serving session =>
        rw [hnext] at hmem
        refine Or.inr ⟨_, List.mem_cons_self, rfl, ?_⟩
        rw [hnext]
        exact ⟨nofun, course_serving hmem⟩
      | closed =>
        rw [hnext] at hmem
        refine Or.inr ⟨_, List.mem_cons_self, rfl, ?_⟩
        rw [hnext]
        exact ⟨nofun, Or.inr (course_closed hmem)⟩

/-- Whoever has left the greeting does not come back to it. -/
theorem course_greeting
    (h : Connection.greeting.course visits = before ++ e :: after)
    (hstage : e.stage = .greeting) :
    ∀ b ∈ before, b.stage = .greeting ∧ b.next = .greeting := by
  rcases course_from h with ⟨-, hall⟩ | ⟨b, -, -, hne, hled | hled⟩
  · exact hall
  · exact absurd (hled.symm.trans hstage) hne
  · cases hstage.symm.trans hled

/-- A session was begun by one visit before. -/
theorem course_begun
    (h : Connection.greeting.course visits = before ++ e :: after)
    (hstage : e.stage = .serving session) :
    ∃ b ∈ before, b.stage = .greeting ∧ b.next = .serving session := by
  rcases course_from h with ⟨hgreets, -⟩ | ⟨b, hb, hgreets, -, hled | hled⟩
  · cases hstage.symm.trans hgreets
  · exact ⟨b, hb, hgreets, hled.symm.trans hstage⟩
  · cases hstage.symm.trans hled

end Connection

/-- What can be said of everything that a connection does. -/
structure Orderly (course : List Entry) : Prop where
  /-- Every line that is processed is answered once, in the order of the
  lines, with the number of its request. -/
  answered : (course.flatMap Entry.frames).filterMap ServerFrame.answers?
    = (course.filterMap Entry.line?).map ReadLine.requestId
  /-- The coordinator does what it is asked to, and nothing else. -/
  performed : ∀ e ∈ course,
    e.hub = e.deeds.foldl (Deed.perform e.visit.now) e.visit.hub
  /-- Before there is a session nothing is sent but answers, and the
  coordinator is asked only to register peers. -/
  greeting : ∀ e ∈ course, e.stage = .greeting →
    (∀ f ∈ e.frames, f.answers? ≠ none)
      ∧ ∀ d ∈ e.deeds, ∃ name role, d = .register name role
  /-- There is a session from the line on that registers it. -/
  registered : ∀ e ∈ course, e.stage = .greeting → ∀ session,
    e.next = .serving session ↔ ∃ id name role number,
      e.request? = some ⟨id, .register name role⟩
        ∧ (e.visit.hub.register name role e.visit.hub.mailboxCapacity
          e.visit.now).1 = .ok (session, number)
  begun : ∀ before e after session, course = before ++ e :: after →
    e.stage = .serving session →
    ∃ b ∈ before, b.stage = .greeting ∧ b.next = .serving session
  /-- From then on every request is executed once, in the order of the
  lines, for that session, until the connection closes. -/
  executed : ∀ before e after session, course = before ++ e :: after →
    e.stage = .greeting → e.next = .serving session →
    (∀ b ∈ before, b.stage = .greeting ∧ b.next = .greeting)
      ∧ (∀ a ∈ after, a.stage = .serving session ∨ a.stage = .closed)
      ∧ after.flatMap Entry.deeds
        = (after.filterMap Entry.request?).map
            (fun f => Deed.call session f.request)
          ++ if after.any (·.next = .closed) then [.leave session] else []
  /-- It closes only for one of five reasons. -/
  ended : ∀ e ∈ course, e.stage ≠ .closed → e.next = .closed → e.Ends
  /-- And then it is over. -/
  closed : ∀ e ∈ course, e.stage = .closed →
    e.frames = [] ∧ e.deeds = [] ∧ e.next = .closed

theorem course_orderly (visits : List Visit) :
    Orderly (Connection.greeting.course visits) where
  answered := Connection.course_answers _
  performed e _ := e.hub_eq
  greeting e _ h := ⟨Entry.frames_of_greeting h, Entry.deeds_of_greeting h⟩
  registered e _ h := Entry.next_serving_iff h
  begun before e after session h := Connection.course_begun h
  executed before e after session h hstage hnext := by
    refine ⟨Connection.course_greeting h hstage, ?_⟩
    obtain ⟨rest, hafter⟩ := Connection.course_after h
    rw [hnext] at hafter
    subst hafter
    exact ⟨fun a => Connection.course_serving,
      Connection.course_deeds session rest⟩
  ended e _ := Entry.ends
  closed e _ := Entry.closed_idle

end Server

end LabLease
