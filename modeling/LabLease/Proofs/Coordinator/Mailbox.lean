/-
Mailboxes: what is put into them, one push after the other, and that a
push which fails is the last.

# Jobs and their posts

All that the coordinator does to mailboxes is a run of small jobs
(`Jobs`). A job that puts a push in is recorded as a post, together with
what has become of it (`Fate`), so that the posts of a run say what was
queued for whom and what was not. Each fact about a session is proved for
one job and holds for a run of them.

# Who reads

A mailbox that its peer no longer reads goes as soon as the coordinator
gives it up, and what waits in it with it. That nothing is lost by this
is `Tidy`: nothing waits in such a mailbox.
-/
import LabLease.Coordinator.Mailbox
import LabLease.Proofs.Table

namespace LabLease.Coordinator

/-- What becomes of a push. -/
inductive Fate where
  | queued
  /-- There is no room for it. -/
  | full
  /-- Nobody would read it. -/
  | unread
  /-- There is no mailbox for it. -/
  | lost
deriving DecidableEq

/-- A push for a session, and what has become of it. -/
structure Post where
  session : SessionId
  push : Push
  fate : Fate
deriving DecidableEq

/-- A push after another to the same session is lost, unless the other
was lost. -/
def Post.Once (x y : Post) : Prop :=
  x.session = y.session → x.fate ≠ .lost → y.fate = .lost

/-- What some posts have put into the mailbox of a session. -/
def queuedFor (session : SessionId) (posts : List Post) : List Push :=
  (posts.filter fun x => x.session = session && x.fate = .queued).map
    (·.push)

/-- Posts in a row fill a mailbox in a row. -/
theorem queuedFor_append (session : SessionId) (posts posts' : List Post) :
    queuedFor session (posts ++ posts')
      = queuedFor session posts ++ queuedFor session posts' := by
  unfold queuedFor
  rw [List.filter_append, List.map_append]

/-- A post counts if it is for the session and was put in. -/
theorem queuedFor_cons (session : SessionId) (x : Post)
    (posts : List Post) :
    queuedFor session (x :: posts)
      = (if x.session = session ∧ x.fate = .queued then [x.push] else [])
        ++ queuedFor session posts := by
  unfold queuedFor
  rw [List.filter_cons]
  simp only [Bool.and_eq_true, decide_eq_true_eq]
  split <;> rfl

/-- Posts to others and posts that failed put nothing in. -/
theorem queuedFor_eq_nil {session : SessionId} {posts : List Post}
    (h : ∀ x ∈ posts, x.session = session → x.fate ≠ .queued) :
    queuedFor session posts = [] := by
  unfold queuedFor
  rw [List.filter_eq_nil_iff.2, List.map_nil]
  intro x hx hq
  rw [Bool.and_eq_true, decide_eq_true_eq, decide_eq_true_eq] at hq
  exact h x hx hq.1 hq.2

/-- A session without a mailbox gets nothing. -/
theorem queuedFor_of_lost {session : SessionId} {posts : List Post}
    (h : ∀ x ∈ posts, x.session = session → x.fate = .lost) :
    queuedFor session posts = [] := by
  refine queuedFor_eq_nil fun x hx hs => ?_
  rw [h x hx hs]
  exact Fate.noConfusion

namespace Mailboxes

/-- What would become of a push. -/
def fate (m : Mailboxes) (session : SessionId) : Fate :=
  match m.attached? session with
  | none => .lost
  | some box =>
    if !box.watched then .unread
    else if box.waiting.length < box.capacity then .queued
    else .full

/-- What waits for a session. -/
def waiting (m : Mailboxes) (session : SessionId) : List Push :=
  ((m.boxes.get? session).map (·.waiting)).getD []

/-- Nothing waits where nobody reads. -/
def Tidy (m : Mailboxes) : Prop :=
  ∀ id box, m.boxes.get? id = some box → box.watched = false →
    box.waiting = []

/-- A session follows the events only as long as it has a mailbox, and
one that nothing is put into any more is still read. -/
structure Kept (session : SessionId) (m : Mailboxes) : Prop where
  boxed : m.isSubscribed session = true → m.hasBox session = true
  read : ∀ box, m.boxes.get? session = some box →
    box.attached = false → box.watched = true

/-- Nothing has changed for a session. -/
structure Same (session : SessionId) (m m' : Mailboxes) : Prop where
  box : m'.boxes.get? session = m.boxes.get? session
  subscribed : m'.isSubscribed session = m.isSubscribed session

variable {m m' m'' : Mailboxes} {session id : SessionId}

-- ============================================================= one mailbox

/-- A mailbox counts as one as long as pushes are put into it. -/
theorem attached?_eq_some {box : Mailbox} :
    m.attached? session = some box ↔
      m.boxes.get? session = some box ∧ box.attached = true := by
  unfold attached?
  exact Option.filter_eq_some_iff

/-- To have a mailbox is to have one that counts. -/
theorem hasBox_iff :
    m.hasBox session = true ↔
      ∃ box, m.boxes.get? session = some box ∧ box.attached = true := by
  unfold hasBox
  rw [Option.isSome_iff_exists]
  simp only [attached?_eq_some]

/-- Only without a mailbox a push is lost. One that is full or unread
fails in another way. -/
theorem fate_eq_lost_iff :
    m.fate session = .lost ↔ m.hasBox session = false := by
  unfold fate hasBox
  cases m.attached? session with
  | none => exact iff_of_true rfl rfl
  | some box =>
    refine iff_of_false ?_ Bool.noConfusion
    dsimp only
    split
    · exact Fate.noConfusion
    · split <;> exact Fate.noConfusion

namespace Same

theorem refl (session : SessionId) (m : Mailboxes) : Same session m m :=
  ⟨rfl, rfl⟩

/-- And so are two runs, with the posts of both. -/
theorem trans (h : Same session m m') (h' : Same session m' m'') :
    Same session m m'' :=
  ⟨h'.box.trans h.box, h'.subscribed.trans h.subscribed⟩

/-- What has not changed for a session are all the things that are asked
about it. -/
theorem hasBox (h : Same session m m') :
    m'.hasBox session = m.hasBox session := by
  unfold Mailboxes.hasBox attached?
  rw [h.box]

theorem fate (h : Same session m m') :
    m'.fate session = m.fate session := by
  unfold Mailboxes.fate attached?
  rw [h.box]

theorem waiting (h : Same session m m') :
    m'.waiting session = m.waiting session := by
  unfold Mailboxes.waiting
  rw [h.box]

theorem kept (h : Same session m m') (hk : m.Kept session) :
    m'.Kept session := by
  refine ⟨fun hsub => ?_, fun box hget => hk.read box (h.box ▸ hget)⟩
  rw [h.subscribed] at hsub
  exact h.hasBox.trans (hk.boxed hsub)

end Same

-- ================================================================= detach

/-- A mailbox that still has a reader stays to be emptied, and one
without is gone. -/
theorem get?_detach :
    (m.detach id).boxes.get? session
      = if id = session then
          ((m.boxes.get? session).filter (·.watched)).map
            ({ · with attached := false })
        else m.boxes.get? session := by
  unfold detach keep
  dsimp only
  cases hbox : m.boxes.get? id with
  | none =>
    dsimp only
    split
    · next heq =>
      subst heq
      rw [hbox]
      rfl
    · rfl
  | some box =>
    dsimp only
    by_cases heq : id = session
    · subst heq
      rw [if_pos rfl, hbox, Option.filter_some]
      cases hw : box.watched with
      | true => simp [hw]
      | false => simp
    · rw [if_neg heq]
      split
      · exact (Table.get?_insert ..).trans (if_neg heq)
      · exact (Table.get?_erase ..).trans (if_neg heq)

@[simp] theorem detach_subscribed (m : Mailboxes) (id : SessionId) :
    (m.detach id).subscribed = m.subscribed.erase id := by
  unfold detach keep
  dsimp only
  split
  · split <;> rfl
  · rfl

/-- Who is detached follows nothing. -/
theorem detach_isSubscribed (m : Mailboxes) (session : SessionId) :
    (m.detach session).isSubscribed session = false := by
  unfold isSubscribed Table.contains
  rw [detach_subscribed, Table.get?_erase, if_pos rfl]
  rfl

/-- And has no mailbox that counts. -/
theorem detach_hasBox (m : Mailboxes) (session : SessionId) :
    (m.detach session).hasBox session = false := by
  rw [← Bool.not_eq_true, hasBox_iff, get?_detach, if_pos rfl]
  intro hex
  obtain ⟨box, hbox, hatt⟩ := hex
  obtain ⟨b, -, rfl⟩ := Option.map_eq_some_iff.1 hbox
  cases hatt

/-- What is left after that is still read. -/
theorem Kept.detach (m : Mailboxes) (session : SessionId) :
    (m.detach session).Kept session := by
  refine ⟨fun hsub => ?_, fun box hbox _ => ?_⟩
  · rw [detach_isSubscribed] at hsub
    cases hsub
  · rw [get?_detach, if_pos rfl] at hbox
    obtain ⟨b, hb, rfl⟩ := Option.map_eq_some_iff.1 hbox
    exact (Option.filter_eq_some_iff.1 hb).2

/-- Nothing is taken from a session that has no mailbox. -/
theorem Kept.detach_eq (h : m.Kept session)
    (hno : m.hasBox session = false) : m.detach session = m := by
  have hsub : m.isSubscribed session = false := by
    rw [← Bool.not_eq_true]
    intro hsub
    rw [h.boxed hsub] at hno
    cases hno
  have hsubs : m.subscribed.erase session = m.subscribed :=
    Table.erase_of_not_contains hsub
  unfold Mailboxes.detach
  rw [hsubs]
  dsimp only
  cases hbox : m.boxes.get? session with
  | none => rfl
  | some box =>
    have hatt : box.attached = false := by
      rw [← Bool.not_eq_true]
      intro hatt
      rw [hasBox_iff.2 ⟨box, hbox, hatt⟩] at hno
      cases hno
    have hsame : { box with attached := false } = box := by rw [← hatt]
    dsimp only
    rw [hsame]
    unfold keep
    rw [h.read box hbox hatt, Bool.or_true, if_pos rfl,
      Table.insert_of_get? hbox]

/-- Detaching makes no mailbox. -/
theorem known_of_detach {box : Mailbox}
    (h : (m.detach id).boxes.get? id = some box) :
    ∃ b, m.boxes.get? id = some b := by
  rw [get?_detach, if_pos rfl] at h
  obtain ⟨b, hb, -⟩ := Option.map_eq_some_iff.1 h
  exact ⟨b, (Option.filter_eq_some_iff.1 hb).1⟩

/-- It leaves all other sessions alone. -/
theorem detach_same (m : Mailboxes) (hne : id ≠ session) :
    Same session m (m.detach id) := by
  refine ⟨get?_detach.trans (if_neg hne), ?_⟩
  unfold isSubscribed Table.contains
  rw [detach_subscribed, Table.get?_erase, if_neg hne]

/-- A mailbox that stays is read, so what waits in it is not lost. -/
theorem Tidy.detach (h : m.Tidy) (id : SessionId) : (m.detach id).Tidy := by
  intro k box hbox hw
  rw [get?_detach] at hbox
  split at hbox
  · obtain ⟨b, hb, rfl⟩ := Option.map_eq_some_iff.1 hbox
    exact h k b (Option.filter_eq_some_iff.1 hb).1 hw
  · exact h k box hbox hw

/-- What goes with its mailbox is nothing, in a tidy state. -/
theorem Tidy.detach_waiting (h : m.Tidy) (id session : SessionId) :
    (m.detach id).waiting session = m.waiting session := by
  unfold waiting
  rw [get?_detach]
  split
  · cases hbox : m.boxes.get? session with
    | none => rfl
    | some box =>
      rw [Option.filter_some]
      cases hw : box.watched with
      | true => simp
      | false => simp [h session box hbox hw]
  · rfl

-- =================================================================== push

/-- A push that succeeds is put behind what waits. -/
theorem push_of_queued (h : m.fate session = .queued) (p : Push) :
    ∃ box, m.boxes.get? session = some box ∧ box.attached = true
      ∧ box.watched = true
      ∧ m.push session p = (true, { m with
          boxes := m.boxes.insert session
            { box with waiting := box.waiting ++ [p] } }) := by
  unfold fate at h
  unfold push
  cases hbox : m.attached? session with
  | none =>
    rw [hbox] at h
    cases h
  | some box =>
    rw [hbox] at h
    dsimp only at h ⊢
    obtain ⟨hget, hatt⟩ := attached?_eq_some.1 hbox
    cases hw : box.watched with
    | false =>
      rw [hw] at h
      cases h
    | true =>
      rw [hw] at h
      by_cases hroom : box.waiting.length < box.capacity
      · exact ⟨box, hget, hatt, hw, by simp [hw, hroom]⟩
      · rw [if_neg (by simp), if_neg hroom] at h
        cases h

/-- A push that fails leaves the session without a mailbox. -/
theorem push_of_not_queued (h : m.fate session ≠ .queued) (p : Push) :
    (m.push session p).1 = false
      ∧ ((m.hasBox session = false ∧ (m.push session p).2 = m)
        ∨ ∃ dropped, (m.push session p).2
          = Mailboxes.detach { m with dropped } session) := by
  unfold fate at h
  unfold push hasBox
  cases hbox : m.attached? session with
  | none => exact ⟨rfl, Or.inl ⟨rfl, rfl⟩⟩
  | some box =>
    rw [hbox] at h
    dsimp only at h ⊢
    by_cases hw : (!box.watched) = true
    · rw [if_pos hw]
      exact ⟨rfl, Or.inr ⟨m.dropped, rfl⟩⟩
    · rw [if_neg hw] at h ⊢
      by_cases hroom : box.waiting.length < box.capacity
      · rw [if_pos hroom] at h
        exact absurd rfl h
      · rw [if_neg hroom]
        exact ⟨rfl, Or.inr ⟨_, rfl⟩⟩

/-- Whether a push has succeeded is what its sender hears. -/
theorem push_fst (m : Mailboxes) (session : SessionId) (p : Push) :
    (m.push session p).1 = true ↔ m.fate session = .queued := by
  by_cases h : m.fate session = .queued
  · obtain ⟨box, -, -, -, heq⟩ := push_of_queued h p
    rw [heq]
    exact iff_of_true rfl h
  · rw [(push_of_not_queued h p).1]
    exact iff_of_false Bool.false_ne_true h

/-- So a push that fails is the last one. -/
theorem push_hasBox_of_not_queued (h : m.fate session ≠ .queued)
    (p : Push) : (m.push session p).2.hasBox session = false := by
  rcases (push_of_not_queued h p).2 with ⟨hno, heq⟩ | ⟨dropped, heq⟩
  · rw [heq]
    exact hno
  · rw [heq]
    exact detach_hasBox _ session

/-- And one that succeeds need not be. -/
theorem push_hasBox_of_queued (h : m.fate session = .queued) (p : Push) :
    (m.push session p).2.hasBox session = true := by
  obtain ⟨box, -, hatt, -, heq⟩ := push_of_queued h p
  rw [heq]
  exact hasBox_iff.2 ⟨_, (Table.get?_insert ..).trans (if_pos rfl), hatt⟩

/-- A push leaves all other sessions alone. -/
theorem push_same (m : Mailboxes) (hne : id ≠ session) (p : Push) :
    Same session m (m.push id p).2 := by
  by_cases h : m.fate id = .queued
  · obtain ⟨box, -, -, -, heq⟩ := push_of_queued h p
    rw [heq]
    exact ⟨(Table.get?_insert ..).trans (if_neg hne), rfl⟩
  · rcases (push_of_not_queued h p).2 with ⟨-, heq⟩ | ⟨dropped, heq⟩
    · rw [heq]
      exact .refl session m
    · rw [heq]
      have hsame : Same session { m with dropped } _ := detach_same _ hne
      exact ⟨hsame.box, hsame.subscribed⟩

/-- Nothing is put where nobody reads. -/
theorem Tidy.push (h : m.Tidy) (id : SessionId) (p : Push) :
    (m.push id p).2.Tidy := by
  by_cases hf : m.fate id = .queued
  · obtain ⟨box, -, -, hw, heq⟩ := push_of_queued hf p
    rw [heq]
    intro k b hb hunread
    rw [Table.get?_insert] at hb
    split at hb
    · cases hb
      rw [show box.watched = false from hunread] at hw
      cases hw
    · exact h k b hb hunread
  · rcases (push_of_not_queued hf p).2 with ⟨-, heq⟩ | ⟨dropped, heq⟩
    · rw [heq]
      exact h
    · rw [heq]
      have ht : Tidy { m with dropped } := h
      exact ht.detach id

/-- What waits after a push is what waited, with the push behind it if it
succeeded. -/
theorem Tidy.push_waiting (h : m.Tidy) (session : SessionId) (p : Push) :
    (m.push session p).2.waiting session
      = m.waiting session
        ++ if m.fate session = .queued then [p] else [] := by
  by_cases hf : m.fate session = .queued
  · obtain ⟨box, hbox, -, -, heq⟩ := push_of_queued hf p
    rw [heq, if_pos hf]
    unfold waiting
    rw [Table.get?_insert, if_pos rfl, hbox]
    rfl
  · rw [if_neg hf, List.append_nil]
    rcases (push_of_not_queued hf p).2 with ⟨-, heq⟩ | ⟨dropped, heq⟩
    · rw [heq]
    · rw [heq]
      have ht : Tidy { m with dropped } := h
      exact ht.detach_waiting session session

/-- Whoever still has a mailbox after a push follows what it followed. -/
theorem push_isSubscribed (m : Mailboxes) (session : SessionId) (p : Push)
    (h : (m.push session p).2.hasBox session = true) :
    (m.push session p).2.isSubscribed session = m.isSubscribed session := by
  by_cases hf : m.fate session = .queued
  · obtain ⟨box, -, -, -, heq⟩ := push_of_queued hf p
    rw [heq]
    rfl
  · rw [push_hasBox_of_not_queued hf] at h
    cases h

-- ============================================================== subscribe

theorem subscribe_isSubscribed (m : Mailboxes) (session : SessionId) :
    (m.subscribe session).isSubscribed session = true :=
  congrArg Option.isSome ((Table.get?_insert ..).trans (if_pos rfl))

theorem unsubscribe_isSubscribed (m : Mailboxes) (session : SessionId) :
    (m.unsubscribe session).isSubscribed session = false :=
  congrArg Option.isSome ((Table.get?_erase ..).trans (if_pos rfl))

-- =================================================================== jobs

/-- One thing that the coordinator does to mailboxes, and the posts of it.
Only new sessions get mailboxes, and only sessions that ask for it begin
or cease to follow the events. -/
inductive Job (new asks : SessionId → Prop) (m : Mailboxes) :
    List Post → Mailboxes → Prop
  | push (id : SessionId) (p : Push) :
    Job new asks m [⟨id, p, m.fate id⟩] (m.push id p).2
  | detach (id : SessionId) : Job new asks m [] (m.detach id)
  | count (eventsSent dropped : Nat) :
    Job new asks m [] { m with eventsSent, dropped }
  | add {id : SessionId} (h : new id) (hno : m.boxes.get? id = none)
      (capacity : Nat) : Job new asks m [] (m.add id capacity)
  | subscribe {id : SessionId} (h : asks id)
      (hbox : m.hasBox id = true) : Job new asks m [] (m.subscribe id)
  | unsubscribe {id : SessionId} (h : asks id) :
    Job new asks m [] (m.unsubscribe id)

/-- Any number of jobs, one after the other. -/
inductive Jobs (new asks : SessionId → Prop) (m : Mailboxes) :
    List Post → Mailboxes → Prop
  | refl : Jobs new asks m [] m
  | tail {posts posts' : List Post} {m' m'' : Mailboxes}
      (h : Jobs new asks m posts m') (job : Job new asks m' posts' m'') :
    Jobs new asks m (posts ++ posts') m''

variable {new asks : SessionId → Prop} {posts posts' : List Post}

/-- What a job does to one session. -/
inductive Effect (new asks : SessionId → Prop) (session : SessionId)
    (m : Mailboxes) : List Post → Mailboxes → Prop
  | none {posts : List Post} {m' : Mailboxes} (h : Same session m m')
      (hposts : ∀ x ∈ posts, x.session ≠ session) :
    Effect new asks session m posts m'
  | pushed (p : Push) :
    Effect new asks session m [⟨session, p, m.fate session⟩]
      (m.push session p).2
  | detached : Effect new asks session m [] (m.detach session)
  | added (h : new session) (hno : m.boxes.get? session = none)
      (capacity : Nat) : Effect new asks session m []
        (m.add session capacity)
  | asked {m' : Mailboxes} (h : asks session) (hb : m'.boxes = m.boxes)
      (hbox : m'.isSubscribed session = true →
        m.hasBox session = true) :
    Effect new asks session m [] m'

/-- A job is about one session, so for any other it does nothing. -/
theorem Job.effect (h : Job new asks m posts m') (session : SessionId) :
    Effect new asks session m posts m' := by
  cases h with
  | push id p =>
    by_cases hid : id = session
    · subst hid
      exact .pushed p
    · refine .none (push_same m hid p) fun x hx => ?_
      rw [List.mem_singleton.1 hx]
      exact hid
  | detach id =>
    by_cases hid : id = session
    · subst hid
      exact .detached
    · exact .none (detach_same m hid) nofun
  | count => exact .none ⟨rfl, rfl⟩ nofun
  | @add id hn hno capacity =>
    by_cases hid : id = session
    · subst hid
      exact .added hn hno capacity
    · exact .none ⟨(Table.get?_insert ..).trans (if_neg hid), rfl⟩ nofun
  | @subscribe id ha hbox =>
    by_cases hid : id = session
    · exact .asked (hid ▸ ha) rfl fun _ => hid ▸ hbox
    · refine .none ⟨rfl, ?_⟩ nofun
      exact congrArg Option.isSome
        ((Table.get?_insert ..).trans (if_neg hid))
  | @unsubscribe id ha =>
    by_cases hid : id = session
    · subst hid
      refine .asked ha rfl fun hsub => ?_
      rw [unsubscribe_isSubscribed] at hsub
      cases hsub
    · refine .none ⟨rfl, ?_⟩ nofun
      exact congrArg Option.isSome
        ((Table.get?_erase ..).trans (if_neg hid))

/-- Following the events is kept beside the mailboxes. -/
theorem hasBox_of_boxes (h : m'.boxes = m.boxes) (session : SessionId) :
    m'.hasBox session = m.hasBox session := by
  unfold hasBox attached?
  rw [h]

namespace Effect

/-- Without a mailbox it stays at that, and every push is lost. -/
theorem closed (h : Effect new asks session m posts m')
    (hnew : ¬ new session) (hno : m.hasBox session = false) :
    m'.hasBox session = false
      ∧ ∀ x ∈ posts, x.session = session → x.fate = .lost := by
  cases h with
  | none hs hposts =>
    exact ⟨hs.hasBox.trans hno, fun x hx heq => absurd heq (hposts x hx)⟩
  | pushed p =>
    have hlost := fate_eq_lost_iff.2 hno
    refine ⟨push_hasBox_of_not_queued (by rw [hlost]; exact nofun) p, ?_⟩
    intro x hx _
    rw [List.mem_singleton.1 hx]
    exact hlost
  | detached => exact ⟨detach_hasBox m session, nofun⟩
  | added hn => exact absurd hn hnew
  | asked _ hb => exact ⟨(hasBox_of_boxes hb session).trans hno, nofun⟩

/-- A push that fails is the last. -/
theorem failed (h : Effect new asks session m posts m') {x : Post}
    (hx : x ∈ posts) (hs : x.session = session)
    (hf : x.fate ≠ .queued) : m'.hasBox session = false := by
  cases h with
  | none _ hposts => exact absurd hs (hposts x hx)
  | pushed p =>
    rw [List.mem_singleton.1 hx] at hf
    exact push_hasBox_of_not_queued hf p
  | detached | added | asked => cases hx

/-- What is queued is put behind what waits. -/
theorem waiting (h : Effect new asks session m posts m') (ht : m.Tidy) :
    m'.waiting session
      = m.waiting session ++ queuedFor session posts := by
  cases h with
  | none hs hposts =>
    rw [queuedFor_eq_nil fun x hx heq => absurd heq (hposts x hx),
      List.append_nil, hs.waiting]
  | pushed p =>
    rw [ht.push_waiting, queuedFor_cons]
    simp only [true_and]
    exact congrArg (m.waiting session ++ ·) (List.append_nil _).symm
  | detached =>
    rw [ht.detach_waiting]
    exact (List.append_nil _).symm
  | added _ hno capacity =>
    unfold Mailboxes.waiting add
    rw [Table.get?_insert, if_pos rfl, hno]
    rfl
  | asked _ hb =>
    unfold Mailboxes.waiting
    rw [hb]
    exact (List.append_nil _).symm

/-- Who keeps the mailbox keeps following the events, or does not. -/
theorem isSubscribed (h : Effect new asks session m posts m')
    (hnew : ¬ new session) (hasks : ¬ asks session)
    (hbox : m'.hasBox session = true) :
    m'.isSubscribed session = m.isSubscribed session := by
  cases h with
  | none hs => exact hs.subscribed
  | pushed p => exact push_isSubscribed m session p hbox
  | detached =>
    rw [detach_hasBox] at hbox
    cases hbox
  | added hn => exact absurd hn hnew
  | asked ha => exact absurd ha hasks

/-- A session follows events only through a mailbox, whatever is done to
it. -/
theorem kept (h : Effect new asks session m posts m')
    (hk : m.Kept session) : m'.Kept session := by
  cases h with
  | none hs => exact hs.kept hk
  | pushed p =>
    by_cases hf : m.fate session = .queued
    · obtain ⟨box, -, hatt, -, heq⟩ := push_of_queued hf p
      refine ⟨fun _ => push_hasBox_of_queued hf p, fun box' hbox hno => ?_⟩
      rw [heq, Table.get?_insert, if_pos rfl] at hbox
      cases hbox
      rw [show box.attached = false from hno] at hatt
      cases hatt
    · rcases (push_of_not_queued hf p).2 with ⟨-, heq⟩ | ⟨_, heq⟩
      · rw [heq]
        exact hk
      · rw [heq]
        exact .detach _ session
  | detached => exact .detach m session
  | added _ _ capacity =>
    have hget : (m.add session capacity).boxes.get? session
        = some { capacity } := (Table.get?_insert ..).trans (if_pos rfl)
    refine ⟨fun _ => hasBox_iff.2 ⟨_, hget, rfl⟩, fun box hbox hno => ?_⟩
    rw [hget] at hbox
    cases hbox
    cases hno
  | asked _ hboxes hbox =>
    refine ⟨fun hsub => ?_, fun box hget => ?_⟩
    · exact (hasBox_of_boxes hboxes session).trans (hbox hsub)
    · exact hk.read box (hboxes ▸ hget)

end Effect

-- =========================================================== runs of jobs

/-- Only a peer can leave something unread, and a peer does no jobs. -/
theorem Job.tidy (h : Job new asks m posts m') (ht : m.Tidy) :
    m'.Tidy := by
  cases h with
  | push id p => exact ht.push id p
  | detach id => exact ht.detach id
  | count | subscribe | unsubscribe => exact ht
  | add =>
    intro k box hbox hw
    rw [Mailboxes.add, Table.get?_insert] at hbox
    split at hbox
    · cases hbox
      rfl
    · exact ht k box hbox hw

/-- Only new sessions get mailboxes. -/
theorem Job.known (h : Job new asks m posts m') {box : Mailbox}
    (hbox : m'.boxes.get? id = some box) :
    new id ∨ ∃ b, m.boxes.get? id = some b := by
  cases h.effect id with
  | none hs => exact Or.inr ⟨box, hs.box.symm.trans hbox⟩
  | pushed p =>
    refine Or.inr ?_
    by_cases hf : m.fate id = .queued
    · obtain ⟨b, hb, -⟩ := push_of_queued hf p
      exact ⟨b, hb⟩
    · rcases (push_of_not_queued hf p).2 with ⟨-, heq⟩ | ⟨dropped, heq⟩
      · rw [heq] at hbox
        exact ⟨box, hbox⟩
      · rw [heq] at hbox
        exact known_of_detach (m := { m with dropped }) hbox
  | detached => exact Or.inr (known_of_detach hbox)
  | added hn => exact Or.inl hn
  | asked _ hb => exact Or.inr ⟨box, hb ▸ hbox⟩

namespace Jobs

/-- One job is a run of jobs. -/
theorem single (job : Job new asks m posts m') :
    Jobs new asks m posts m' := refl.tail job

theorem trans (h : Jobs new asks m posts m')
    (h' : Jobs new asks m' posts' m'') :
    Jobs new asks m (posts ++ posts') m'' := by
  induction h' with
  | refl =>
    rw [List.append_nil]
    exact h
  | tail _ job ih =>
    rw [← List.append_assoc]
    exact ih.tail job

/-- Tidiness over a run. -/
theorem tidy (h : Jobs new asks m posts m') (ht : m.Tidy) : m'.Tidy := by
  induction h with
  | refl => exact ht
  | tail _ job ih => exact job.tidy ih

/-- Over a run a mailbox is from before or is a new session's. -/
theorem known (h : Jobs new asks m posts m') {box : Mailbox}
    (hbox : m'.boxes.get? id = some box) :
    new id ∨ ∃ b, m.boxes.get? id = some b := by
  induction h generalizing box with
  | refl => exact Or.inr ⟨box, hbox⟩
  | tail _ job ih =>
    rcases job.known hbox with hnew | ⟨b, hb⟩
    · exact Or.inl hnew
    · exact ih hb

/-- Over a run all that is queued is put behind what waits, in order. -/
theorem waiting (h : Jobs new asks m posts m') (ht : m.Tidy)
    (session : SessionId) :
    m'.waiting session
      = m.waiting session ++ queuedFor session posts := by
  induction h with
  | refl => exact (List.append_nil _).symm
  | tail hrun job ih =>
    rw [(job.effect session).waiting (hrun.tidy ht), ih, queuedFor_append,
      List.append_assoc]

/-- A session without a mailbox stays without one over a run. -/
theorem closed (h : Jobs new asks m posts m') (hnew : ¬ new session)
    (hno : m.hasBox session = false) :
    m'.hasBox session = false
      ∧ ∀ x ∈ posts, x.session = session → x.fate = .lost := by
  induction h with
  | refl => exact ⟨hno, nofun⟩
  | tail _ job ih =>
    obtain ⟨hno', hlost⟩ := ih
    obtain ⟨hno'', hlost'⟩ := (job.effect session).closed hnew hno'
    refine ⟨hno'', fun x hx => ?_⟩
    exact (List.mem_append.1 hx).elim (hlost x) (hlost' x)

/-- Over a run a session that keeps its mailbox follows what it
followed. -/
theorem isSubscribed (h : Jobs new asks m posts m')
    (hnew : ¬ new session) (hasks : ¬ asks session)
    (hbox : m'.hasBox session = true) :
    m'.isSubscribed session = m.isSubscribed session := by
  induction h with
  | refl => rfl
  | @tail _ _ m₁ _ _ job ih =>
    have hbefore : m₁.hasBox session = true := by
      rw [← Bool.not_eq_false]
      intro hno
      rw [((job.effect session).closed hnew hno).1] at hbox
      cases hbox
    rw [(job.effect session).isSubscribed hnew hasks hbox, ih hbefore]

/-- Over a run, by what each job does to the session. -/
theorem kept (h : Jobs new asks m posts m') (hk : m.Kept session) :
    m'.Kept session := by
  induction h with
  | refl => exact hk
  | tail _ job ih => exact (job.effect session).kept ih

/-- After a push to a session has failed the session has no mailbox. -/
theorem failed (h : Jobs new asks m posts m') (hnew : ¬ new session)
    {x : Post} (hx : x ∈ posts) (hs : x.session = session)
    (hf : x.fate ≠ .queued) : m'.hasBox session = false := by
  induction h with
  | refl => cases hx
  | tail _ job ih =>
    rcases List.mem_append.1 hx with hx | hx
    · exact ((job.effect session).closed hnew (ih hx)).1
    · exact (job.effect session).failed hx hs hf

end Jobs

-- ============================================================== the peers

/-- A peer takes some pushes out of its mailbox. -/
def receive (m : Mailboxes) (session : SessionId) (count : Nat) :
    Mailboxes :=
  match m.boxes.get? session with
  | some box =>
    let box := { box with waiting := box.waiting.drop count }
    { m with boxes := m.boxes.insert session box }
  | none => m

/-- What a peer does at its end of a mailbox takes pushes out and may end
the reading, and the mailbox stays as long as pushes are put in. -/
structure Handles (m m' : Mailboxes) : Prop where
  hasBox : ∀ session, m'.hasBox session = m.hasBox session
  subscribed : m'.subscribed = m.subscribed
  known : ∀ id box, m'.boxes.get? id = some box →
    ∃ b, m.boxes.get? id = some b
  tidy : m.Tidy → m'.Tidy
  kept : ∀ session, m.Kept session → m'.Kept session

/-- A peer handles one mailbox, which may go if nobody puts anything in
any more. -/
theorem Handles.of_box (id : SessionId) (f : Mailbox → Option Mailbox)
    (hsub : m'.subscribed = m.subscribed)
    (hget : ∀ k, m'.boxes.get? k
      = if id = k then (m.boxes.get? k).bind f else m.boxes.get? k)
    (hatt : ∀ box, (f box).any (·.attached) = box.attached)
    (hread : ∀ box box', f box = some box' →
      (box.watched = false → box.waiting = []) →
      box'.watched = false → box'.waiting = [])
    (hstay : ∀ box box', f box = some box' → box'.attached = false →
      box'.watched = box.watched) :
    m.Handles m' := by
  have hhas : ∀ k, m'.hasBox k = m.hasBox k := by
    intro k
    unfold Mailboxes.hasBox attached?
    rw [hget]
    split
    · cases m.boxes.get? k with
      | none => rfl
      | some box =>
        rw [Option.bind_some, Option.isSome_filter, Option.isSome_filter,
          hatt]
        rfl
    · rfl
  refine ⟨hhas, hsub, fun k box' hbox => ?_, fun ht k box' hbox hw => ?_,
    fun k hk => ⟨fun hfollows => ?_, fun box' hbox hno => ?_⟩⟩
  · rw [hget] at hbox
    split at hbox
    · obtain ⟨box, hb, -⟩ := Option.bind_eq_some_iff.1 hbox
      exact ⟨box, hb⟩
    · exact ⟨box', hbox⟩
  · rw [hget] at hbox
    split at hbox
    · obtain ⟨box, hb, hf⟩ := Option.bind_eq_some_iff.1 hbox
      exact hread box box' hf (ht k box hb) hw
    · exact ht k box' hbox hw
  · unfold isSubscribed at hfollows
    rw [hsub] at hfollows
    exact (hhas k).trans (hk.boxed hfollows)
  · rw [hget] at hbox
    split at hbox
    · obtain ⟨box, hb, hf⟩ := Option.bind_eq_some_iff.1 hbox
      have hwas := hatt box
      rw [hf, Option.any_some, hno] at hwas
      exact (hstay box box' hf hno).trans (hk.read box hb hwas.symm)
    · exact hk.read box' hbox hno

/-- Taking pushes out. -/
theorem receive_handles (m : Mailboxes) (id : SessionId) (count : Nat) :
    m.Handles (m.receive id count) := by
  let f (box : Mailbox) : Option Mailbox :=
    some { box with waiting := box.waiting.drop count }
  refine .of_box id f ?_ (fun k => ?_) (fun _ => rfl) ?_ ?_
  · unfold receive
    split <;> rfl
  · unfold receive
    by_cases heq : id = k
    · rw [if_pos heq, ← heq]
      cases hbox : m.boxes.get? id with
      | none => exact hbox
      | some box => exact (Table.get?_insert ..).trans (if_pos rfl)
    · rw [if_neg heq]
      split
      · exact (Table.get?_insert ..).trans (if_neg heq)
      · rfl
  · intro box box' hf ht hw
    cases hf
    show box.waiting.drop count = []
    rw [ht hw, List.drop_nil]
  · intro box box' hf _
    cases hf
    rfl

/-- Ending the reading: what still waits is thrown away, so nothing waits
unread. -/
theorem abandon_handles (m : Mailboxes) (id : SessionId) :
    m.Handles (m.abandon id) := by
  let f (box : Mailbox) : Option Mailbox :=
    if box.attached then some { box with waiting := [], watched := false }
    else none
  refine .of_box id f ?_ (fun k => ?_) (fun box => ?_) ?_ ?_
  · unfold abandon keep
    split
    · split <;> rfl
    · rfl
  · unfold abandon keep
    by_cases heq : id = k
    · rw [if_pos heq, ← heq]
      cases hbox : m.boxes.get? id with
      | none => exact hbox
      | some box =>
        cases hatt : box.attached <;> simp [f, hatt]
    · rw [if_neg heq]
      dsimp only
      split
      · split
        · exact (Table.get?_insert ..).trans (if_neg heq)
        · exact (Table.get?_erase ..).trans (if_neg heq)
      · rfl
  · cases hatt : box.attached <;> simp [f, hatt]
  · intro box box' hf _ _
    simp only [f] at hf
    split at hf <;> cases hf
    rfl
  · intro box box' hf hno
    simp only [f] at hf
    split at hf
    · next hatt =>
      cases hf
      rw [hatt] at hno
      cases hno
    · cases hf

end Mailboxes

end LabLease.Coordinator
