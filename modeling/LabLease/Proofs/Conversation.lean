/-
A connection from both of its ends: what the peer is told of a request is
what came of that request.

The two ends are tied together by nothing but the octets between them.
Requests may be written in another order than they were numbered, lines
may be too long, answers may come when nobody waits for them any more, and
what others do at the coordinator in the meantime is open.

Two things keep the answers apart. The frame of an answer has the number of
the line that it answers, and of the lines that are JSON there is one for
each request (`count_line`). And whatever the peer reads as an answer was
written as one, with the number that it is read with (`reply_of_parse`,
`feedAll_frames_json`).
-/
import Mathlib.Data.List.Nodup
import Mathlib.Data.List.Perm.Subperm
import LabLease.Proofs.Client.Link
import LabLease.Proofs.Server.Connection
import LabLease.Proofs.Wire.Heading
import LabLease.Proofs.Wire.Stream

namespace LabLease

open Client (Arrival Link)
open Client.Link (Act)
open Server

-- ================================================================ numbers

/-- Only a line that is JSON has a number. -/
theorem ReadLine.isJson_of_requestId {l : ReadLine} (h : l.requestId ≠ 0) :
    l.isJson = true := by
  cases l with
  | tooLarge => exact absurd rfl h
  | line s =>
    unfold isJson
    dsimp only
    cases htree : Json.Tree.parse (Text.trim s.toList) with
    | some t => rfl
    | none =>
      refine absurd ?_ h
      have hread : Json.parseAs RequestFrame.ofJson? (Text.trim s.toList)
          = none := by
        unfold Json.parseAs
        rw [htree]
        rfl
      have hparse : ∃ fault,
          parseFrame RequestFrame.ofJson? s = .error fault := by
        unfold parseFrame
        split
        · exact ⟨_, rfl⟩
        · rw [hread]
          exact ⟨_, rfl⟩
      have hvalue : Json.Value.parse (Text.trim s.toList) = none := by
        unfold Json.Value.parse
        rw [htree]
        rfl
      obtain ⟨fault, hfault⟩ := hparse
      unfold requestId
      dsimp only
      rw [hfault]
      unfold salvageId
      rw [hvalue]

/-- The line of a request has its number, or none. -/
theorem RequestFrame.requestId_line (f : RequestFrame) :
    (ReadLine.line f.json.render).requestId = f.id
      ∨ (ReadLine.line f.json.render).requestId = 0 := by
  unfold ReadLine.requestId
  dsimp only
  cases hparse : parseFrame RequestFrame.ofJson? f.json.render with
  | ok g => exact Or.inl (RequestFrame.id_of_parse hparse)
  | error fault => exact f.salvageId_json

-- ========================================================== conversations

/-- Two ends of a connection: as far as it has come, what each end takes
is what the other one has written. -/
structure Conversation (acts : List Act) (visits : List Visit) : Prop where
  /-- The requests that were written are some of those that were sent, in
  whatever order. -/
  up : ∃ (written : List RequestFrame) (octets : List UInt8),
    written.Subperm (({} : Link).run acts).1
    ∧ octets <+: frameOctets (written.map RequestFrame.json)
    ∧ (visits.filterMap fun v => v.incoming.line?)
      <+: (LineReader.feedAll { limit := maxFrameSize } octets).2
  down : ∃ octets, octets <+: frameOctets
      (((Connection.greeting.course visits).flatMap Entry.frames).map
        ServerFrame.json)
    ∧ acts.filterMap Act.line?
      <+: (LineReader.feedAll { limit := maxFrameSize } octets).2

/-- What a line comes to at a visit. -/
def Server.Entry.result (e : Entry) (line : ReadLine) :
    Except Refusal Reply :=
  e.stage.answer e.visit.cause e.visit.hub e.visit.now line

/-- A request is processed at a visit, and its result is what the peer is
told. -/
structure Resolves (e : Entry) (f : RequestFrame)
    (answer : Except Refusal Reply) : Prop where
  line : e.line? = some (.line f.json.render)
  frames : e.frames = [.ofResult f.id (e.result (.line f.json.render))]
  /-- The peer is told what it reads in the line of the answer. -/
  told : (parseFrame ServerFrame.ofJson? (ServerFrame.ofResult f.id
      (e.result (.line f.json.render))).json.render).map Inbound.ofFrame
    = .ok (.reply f.id answer)
  /-- The request that is processed is the one that was sent, if it can be
  written. -/
  request : f.Proper → FitsLine f.json → e.request? = some f
  /-- What comes of it in a session is what comes of its operation. -/
  call : ∀ session, e.stage = .serving session → e.request? = some f →
    e.result (.line f.json.render)
      = (e.visit.hub.call session f.request e.visit.now).1
  /-- And what the peer is told is what came of it, if that can be
  written. -/
  result : ProperResult (e.result (.line f.json.render)) →
    FitsLine (ServerFrame.ofResult f.id
      (e.result (.line f.json.render))).json →
    answer = e.result (.line f.json.render)

namespace Conversation

variable {acts : List Act} {visits : List Visit} {id : Nat}
  {op : Operation} {answer : Except Refusal Reply}

/-- Of the lines that are processed those that are JSON are lines of
requests, each of them once. -/
theorem lines (h : Conversation acts visits) :
    ∃ written : List RequestFrame,
      written.Subperm (({} : Link).run acts).1
        ∧ (((Connection.greeting.course visits).filterMap
            Entry.line?).filter ReadLine.isJson).Sublist
          (written.map fun f => .line f.json.render) := by
  obtain ⟨written, octets, hwritten, hoctets, htaken⟩ := h.up
  refine ⟨written, hwritten, ?_⟩
  have hobject : ∀ v ∈ written.map RequestFrame.json,
      ∃ ms, v = .object ms := by
    intro v hv
    obtain ⟨f, -, rfl⟩ := List.mem_map.1 hv
    exact ⟨_, rfl⟩
  have hjson :=
    LineReader.feedAll_frames_json maxFrameSize_room hobject hoctets
  rw [List.map_map] at hjson
  have hprocessed := (Connection.course_lines .greeting visits).trans htaken
  exact (hprocessed.filter _).sublist.trans hjson

/-- Requests have different numbers. -/
theorem nodup_ids {written : List RequestFrame}
    (h : written.Subperm (({} : Link).run acts).1) :
    (written.map RequestFrame.id).Nodup := by
  obtain ⟨asked, hperm, hsub⟩ := h
  have hall : (({} : Link).run acts).1.map RequestFrame.id
      |>.Nodup := by
    rw [Link.run_ids]
    exact List.nodup_range'
  exact (hperm.map _).nodup_iff.1 (hall.sublist (hsub.map _))

/-- And none of them is zero. -/
theorem id_ne_zero {f : RequestFrame}
    (h : f ∈ (({} : Link).run acts).1) : f.id ≠ 0 := by
  have hmem := List.mem_map_of_mem (f := RequestFrame.id) h
  rw [Link.run_ids] at hmem
  have hle := List.left_le_of_mem_range' hmem
  exact Nat.ne_of_gt hle

/-- A line that is answered with the number of a request is its line. -/
theorem line_of_requestId (h : Conversation acts visits) {l : ReadLine}
    (hl : l ∈ (Connection.greeting.course visits).filterMap Entry.line?)
    {f : RequestFrame} (hf : f ∈ (({} : Link).run acts).1)
    (hid : l.requestId = f.id) : l = .line f.json.render := by
  have hnum : l.requestId ≠ 0 := hid ▸ id_ne_zero hf
  obtain ⟨written, hwritten, hlines⟩ := h.lines
  have hmem := hlines.subset
    (List.mem_filter.2 ⟨hl, ReadLine.isJson_of_requestId hnum⟩)
  obtain ⟨g, hg, rfl⟩ := List.mem_map.1 hmem
  have hgid : g.id = f.id := by
    rcases g.requestId_line with heq | hzero
    · exact heq.symm.trans hid
    · exact absurd hzero hnum
  have hall := nodup_ids (List.Subperm.refl (({} : Link).run acts).1)
  cases List.inj_on_of_nodup_map hall (hwritten.subset hg) hf hgid
  rfl

/-- No line of a request comes twice. -/
theorem count_line (h : Conversation acts visits) {l : ReadLine}
    (hid : l.requestId ≠ 0) :
    ((Connection.greeting.course visits).filterMap Entry.line?).count l
      ≤ 1 := by
  obtain ⟨written, hwritten, hlines⟩ := h.lines
  have hjson := ReadLine.isJson_of_requestId hid
  -- among the requests that were written there is one of this number
  have hsame : ∀ f : RequestFrame, ReadLine.line f.json.render = l →
      f.id = l.requestId := by
    rintro f rfl
    rcases f.requestId_line with heq | hzero
    · exact heq.symm
    · exact absurd hzero hid
  have hnumbers : (written.map fun f => ReadLine.line f.json.render).count l
      ≤ (written.map RequestFrame.id).count l.requestId := by
    rw [List.count, List.countP_map, List.count, List.countP_map]
    refine List.countP_mono_left fun f _ hf => ?_
    exact beq_iff_eq.2 (hsame f (beq_iff_eq.1 hf))
  have hone := List.nodup_iff_count_le_one.1 (nodup_ids hwritten) l.requestId
  have hall := hlines.count_le l
  rw [List.count_filter hjson] at hall
  omega

/-- The line of a request is processed, and the peer reads the line of the
answer. -/
theorem resolves {e : Entry} {l : ReadLine} {g : ServerFrame}
    (hl : e.line? = some l)
    (hown : l = .line (RequestFrame.json ⟨l.requestId, op⟩).render)
    (hparse : parseFrame ServerFrame.ofJson?
      (ServerFrame.ofResult l.requestId (e.result l)).json.render = .ok g)
    (hreply : Inbound.ofFrame g = .reply l.requestId answer) :
    Resolves e ⟨l.requestId, op⟩ answer := by
  have hframes := Entry.frames_of_line hl
  generalize l.requestId = id at *
  subst hown
  refine ⟨hl, hframes, ?_, fun hproper hfits => ?_,
    fun session hstage hrequest => ?_, fun hproper hfits => ?_⟩
  · rw [hparse]
    exact congrArg Except.ok hreply
  · unfold Entry.request?
    rw [hl]
    show (parseFrame RequestFrame.ofJson? _).toOption = _
    rw [RequestFrame.parse_render hproper hfits]
    rfl
  · exact Entry.answer_of_request hl hstage hrequest
  · rw [ServerFrame.parse_render (hproper.frame id) hfits] at hparse
    cases hparse
    rw [ofFrame_ofResult hproper id] at hreply
    cases hreply
    rfl

/-- What the peer reads as an answer was written as one, at a visit at which
a line with the number of the request was processed. -/
theorem written_answer (h : Conversation acts visits) {s : String}
    {g : ServerFrame} (hs : .line s ∈ acts.filterMap Act.line?)
    (hparse : parseFrame ServerFrame.ofJson? s = .ok g)
    (hreply : Inbound.ofFrame g = .reply id answer) :
    ∃ e ∈ Connection.greeting.course visits, ∃ l, e.line? = some l
      ∧ l.requestId = id
      ∧ s = (ServerFrame.ofResult id (e.result l)).json.render := by
  obtain ⟨octets, hoctets, htaken⟩ := h.down
  have hobject : ∀ v ∈ ((Connection.greeting.course visits).flatMap
      Entry.frames).map ServerFrame.json, ∃ ms, v = .object ms := by
    intro v hv
    obtain ⟨f, -, rfl⟩ := List.mem_map.1 hv
    exact f.json_object
  have hmem := (LineReader.feedAll_frames_json maxFrameSize_room hobject
    hoctets).subset (List.mem_filter.2
      ⟨htaken.subset hs, isJson_of_parseFrame hparse⟩)
  rw [List.map_map] at hmem
  obtain ⟨frame, hframe, hrender⟩ := List.mem_map.1 hmem
  cases hrender
  obtain ⟨e, he, hframe⟩ := List.mem_flatMap.1 hframe
  refine ⟨e, he, ?_⟩
  cases hl : e.line? with
  | some l =>
    rw [Entry.frames_of_line hl] at hframe
    cases List.mem_singleton.1 hframe
    obtain ⟨r, hr⟩ := ServerFrame.reply_of_parse hparse
    cases hreply.symm.trans hr
    exact ⟨l, rfl, rfl, rfl⟩
  | none =>
    -- a push is not read as an answer
    rcases Entry.frames_of_no_line hl with hnone | ⟨_, p, -, -, hpush⟩
    · rw [hnone] at hframe
      cases hframe
    · rw [hpush] at hframe
      cases List.mem_singleton.1 hframe
      obtain ⟨q, hq⟩ := ServerFrame.push_of_parse hparse
      cases hreply.symm.trans hq

/-- A line that a request is answered for comes at one visit only. -/
theorem line_once (h : Conversation acts visits) {before after : List Entry}
    {e : Entry} {l : ReadLine}
    (hsplit : Connection.greeting.course visits = before ++ e :: after)
    (hl : e.line? = some l) (hid : l.requestId ≠ 0) :
    ∀ e' ∈ before ++ after, e'.line? ≠ e.line? := by
  have hone := h.count_line hid
  rw [hsplit, List.filterMap_append, List.filterMap_cons_some hl,
    List.count_append, List.count_cons_self] at hone
  have hnone : (before.filterMap Entry.line?).count l = 0
      ∧ (after.filterMap Entry.line?).count l = 0 := by omega
  intro e' he' hsame
  have hmem : e'.line? = some l := hsame.trans hl
  rcases List.mem_append.1 he' with hbefore | hafter
  · exact List.count_eq_zero.1 hnone.1
      (List.mem_filterMap.2 ⟨e', hbefore, hmem⟩)
  · exact List.count_eq_zero.1 hnone.2
      (List.mem_filterMap.2 ⟨e', hafter, hmem⟩)

/-- Whoever is told of a request is told what came of it, at the one visit
at which it was processed. -/
theorem answer_own (h : Conversation acts visits)
    (hanswer : Arrival.answer id op answer ∈ (({} : Link).run acts).2.1) :
    ∃ before e after,
      Connection.greeting.course visits = before ++ e :: after
        ∧ Resolves e ⟨id, op⟩ answer
        ∧ ∀ e' ∈ before ++ after, e'.line? ≠ e.line? := by
  obtain ⟨hasked, s, g, hs, hparse, hreply⟩ := Link.answer_asked hanswer
  have hf : ⟨id, op⟩ ∈ (({} : Link).run acts).1 := by
    rcases hasked with hwaits | hf
    · cases hwaits
    · exact hf
  obtain ⟨e, he, l, hl, rfl, rfl⟩ := h.written_answer hs hparse hreply
  have hlmem := List.mem_filterMap.2 ⟨e, he, hl⟩
  have hown := h.line_of_requestId hlmem hf rfl
  obtain ⟨before, after, hsplit⟩ := List.append_of_mem he
  exact ⟨before, e, after, hsplit, resolves hl hown hparse hreply,
    h.line_once hsplit hl (id_ne_zero hf)⟩

end Conversation

/-- On every connection, whatever comes in and whatever happens at the
coordinator in between, lines are answered one by one, nobody is served
before they have registered, every request is executed once for the session
of the connection, and the connection closes for one of five reasons. And
whoever is told of a request at the other end of it is told what came of
that request. -/
theorem answers_in_order :
    (∀ visits, Orderly (Connection.greeting.course visits))
      ∧ ∀ acts visits, Conversation acts visits → ∀ id op answer,
        Arrival.answer id op answer ∈ (({} : Link).run acts).2.1 →
        ∃ before e after,
          Connection.greeting.course visits = before ++ e :: after
            ∧ Resolves e ⟨id, op⟩ answer
            ∧ ∀ e' ∈ before ++ after, e'.line? ≠ e.line? :=
  ⟨course_orderly, fun _ _ h _ _ _ hanswer => h.answer_own hanswer⟩

/-- A client registers and asks for two things at once. The second request
is written first, and the client gets the answers in that order. -/
theorem answers_in_order_swapped :
    let noon : Moment := ⟨0, ⟨2024, 1, 1, 12, 0, 0, 0⟩⟩
    let hub := Coordinator.Hub.new {}
    let joined := (hub.register "alice" .client hub.mailboxCapacity noon).2
    let later := (joined.call 1 (.acquire "bench") noon).2
    let asked : List RequestFrame :=
      [⟨1, .register "alice" .client⟩, ⟨2, .heartbeat⟩, ⟨3, .acquire "bench"⟩]
    let line := fun id op => Incoming.line
      (.line (RequestFrame.json ⟨id, op⟩).render)
    let cause := fun _ => "expected value at line 1 column 1"
    let visits : List Visit :=
      [⟨hub, noon, cause, line 1 (.register "alice" .client)⟩,
       ⟨joined, noon, cause, line 3 (.acquire "bench")⟩,
       ⟨later, noon, cause, line 2 .heartbeat⟩]
    let told : List ServerFrame :=
      [.response 1 (.registered 1 0),
       .error 3 .notFound "place 'bench'", .response 2 .ack]
    let acts : List Act :=
      asked.map (fun f => .ask f.request)
        ++ told.map fun f => .take (.line f.json.render)
    Conversation acts visits
      ∧ Arrival.answer 2 .heartbeat (.ok .ack)
        ∈ (({} : Link).run acts).2.1
      ∧ ∃ e ∈ Connection.greeting.course visits,
        Resolves e ⟨2, .heartbeat⟩ (.ok .ack) := by
  intro noon hub joined later asked line cause visits told acts
  have hfits : (∀ f ∈ asked, FitsLine f.json)
      ∧ ∀ f ∈ told, FitsLine f.json := by decide +kernel
  have hproper : asked.Forall RequestFrame.Proper
      ∧ told.Forall ServerFrame.Proper :=
    ⟨⟨trivial, trivial, trivial⟩, trivial, trivial, trivial⟩
  rw [List.forall_iff_forall_mem, List.forall_iff_forall_mem] at hproper
  have hasked : ∀ f ∈ asked,
      parseFrame RequestFrame.ofJson? f.json.render = .ok f := fun f hf =>
    RequestFrame.parse_render (hproper.1 f hf) (hfits.1 f hf)
  have htold : ∀ f ∈ told,
      parseFrame ServerFrame.ofJson? f.json.render = .ok f := fun f hf =>
    ServerFrame.parse_render (hproper.2 f hf) (hfits.2 f hf)
  simp only [asked, told, List.forall_mem_cons] at hasked htold
  have hregister : hub.register "alice" .client hub.mailboxCapacity noon
      = (.ok (1, 0), joined) :=
    Prod.ext (by decide +kernel) rfl
  have hacquire : joined.call 1 (.acquire "bench") noon
      = (.error (.notFound "place 'bench'"), later) :=
    Prod.ext (by decide +kernel) rfl
  have hheartbeat : (later.call 1 .heartbeat noon).1 = .ok .ack := by
    decide +kernel
  -- each visit and what is sent then
  have hfirst : Entry.outcome ⟨.greeting, hub, noon, cause,
        line 1 (.register "alice" .client)⟩
      = ([.response 1 (.registered 1 0)], .serving 1, joined) := by
    simp only [Entry.outcome, Connection.step, Connection.react, line,
      Connection.greet, hasked.1, hregister]
    rfl
  have hsecond : Entry.outcome ⟨.serving 1, joined, noon, cause,
        line 3 (.acquire "bench")⟩
      = ([.error 3 .notFound "place 'bench'"], .serving 1, later) := by
    refine (Connection.step_request cause joined noon 1 hasked.2.2.1
      (by decide)).trans ?_
    rw [hacquire]
    rfl
  have hthird : (Entry.outcome ⟨.serving 1, later, noon, cause,
        line 2 .heartbeat⟩).1 = [.response 2 .ack] := by
    refine (congrArg Prod.fst (Connection.step_request cause later noon 1
      hasked.2.1 (by decide))).trans ?_
    rw [hheartbeat]
    rfl
  have hframes : (Connection.greeting.course visits).flatMap Entry.frames
      = told := by
    simp only [visits, Connection.course, Entry.next, List.flatMap_cons,
      Entry.frames, hfirst, hsecond, hthird]
    rfl
  have hrun : ({} : Link).run acts = (asked,
      [.answer 1 (.register "alice" .client) (.ok (.registered 1 0)),
       .answer 3 (.acquire "bench") (.error (.notFound "place 'bench'")),
       .answer 2 .heartbeat (.ok .ack)], ⟨3, .empty⟩) := by
    simp only [acts, asked, told, List.map_cons, List.map_nil,
      List.cons_append, List.nil_append, Link.run, Link.send, Link.receive,
      htold.1, htold.2.1, htold.2.2.1]
    rfl
  have hanswer : Arrival.answer 2 .heartbeat (.ok .ack)
      ∈ (({} : Link).run acts).2.1 := by
    rw [hrun]
    exact List.mem_cons_of_mem _ (List.mem_cons_of_mem _
      List.mem_cons_self)
  have hperm : List.Perm [⟨1, .register "alice" .client⟩,
      ⟨3, .acquire "bench"⟩, ⟨2, .heartbeat⟩] asked := .cons _ (.swap _ _ _)
  have hconversation : Conversation acts visits := by
    refine ⟨⟨[⟨1, .register "alice" .client⟩, ⟨3, .acquire "bench"⟩,
      ⟨2, .heartbeat⟩], _, ?_, List.prefix_rfl, ?_⟩, _, List.prefix_rfl, ?_⟩
    · rw [hrun]
      exact hperm.subperm
    · rw [feedAll_frames]
      · exact List.prefix_rfl
      · intro v hv
        obtain ⟨f, hf, rfl⟩ := List.mem_map.1 hv
        exact hfits.1 f (hperm.subset hf)
    · rw [hframes, feedAll_frames]
      · exact List.prefix_rfl
      · intro v hv
        obtain ⟨f, hf, rfl⟩ := List.mem_map.1 hv
        exact hfits.2 f hf
  obtain ⟨before, e, after, hcourse, hresolves, -⟩ :=
    answers_in_order.2 acts visits hconversation 2 .heartbeat (.ok .ack)
      hanswer
  refine ⟨hconversation, hanswer, e, ?_, hresolves⟩
  rw [hcourse]
  exact List.mem_append_right _ List.mem_cons_self

end LabLease
