/-
Why the registries refuse: each operation has its own few kinds of
refusal, whatever it is asked and whatever is stored.

A registry knows nothing of sessions but their numbers. So none of them
ever says that a session is stale, and whoever hears that has it from
the roster.
-/
import LabLease.Registry.Places
import LabLease.Registry.Queue
import LabLease.Registry.Roster

namespace LabLease

/-- Whatever a computation is refused for is of one of some kinds. -/
structure Refuses {α : Type} (kinds : List RefusalKind)
    (r : Except Refusal α) : Prop where
  kind_mem : ∀ e, r = .error e → e.kind ∈ kinds

namespace Refuses

variable {α β : Type} {kinds : List RefusalKind}

/-- What is granted is not refused. -/
theorem ok (v : α) : Refuses kinds (.ok v) := by
  refine ⟨fun e he => ?_⟩
  cases he

/-- Which kinds are meant is a list, so whether a refusal is of one of
them can be computed. -/
theorem error {e : Refusal} (h : kinds.contains e.kind = true) :
    Refuses kinds (.error e : Except Refusal α) := by
  refine ⟨fun e' he => ?_⟩
  cases he
  exact List.contains_iff_mem.1 h

/-- Whichever of two computations refuses, it is for one of the same
kinds. -/
theorem bind {r : Except Refusal α} {f : α → Except Refusal β}
    (h : Refuses kinds r) (hf : ∀ v, Refuses kinds (f v)) :
    Refuses kinds (r >>= f) := by
  refine ⟨fun e he => ?_⟩
  cases r with
  | error _ =>
    cases he
    exact h.kind_mem e rfl
  | ok v => exact (hf v).kind_mem e he

/-- And so for a loop, whatever state it has come to. -/
theorem foldlM {f : β → α → Except Refusal β}
    (hf : ∀ b a, Refuses kinds (f b a)) (as : List α) (b : β) :
    Refuses kinds (as.foldlM f b) := by
  induction as generalizing b with
  | nil => exact ok b
  | cons a as ih =>
    rw [List.foldlM_cons]
    exact bind (hf b a) ih

/-- Kinds may be added, so parts of an operation with few of them fit
together. -/
theorem mono {kinds' : List RefusalKind} {r : Except Refusal α}
    (h : Refuses kinds r) (hsub : kinds ⊆ kinds') : Refuses kinds' r :=
  ⟨fun e he => hsub (h.kind_mem e he)⟩

end Refuses

-- ============================================================== inventory

namespace Inventory

variable (inv : Inventory) (owner : SessionId)

/-- The same resource may not be announced twice in one request. -/
theorem announced_refuses (exporter : String)
    (specs : List ResourceSpec) :
    Refuses [.invalidRequest] (announced exporter specs) := by
  refine Refuses.foldlM (fun t spec => ?_) specs _
  dsimp only
  split
  · exact .error rfl
  · exact .ok _

/-- Nor may it be published by another session already. -/
theorem publish_refuses (exporter : String) (specs : List ResourceSpec) :
    Refuses [.invalidRequest, .conflict]
      (inv.publish exporter owner specs) := by
  unfold publish
  refine .bind ((announced_refuses exporter specs).mono (by decide))
    fun incoming => ?_
  split
  · exact .error rfl
  · exact .ok _

/-- Only what the session publishes can be withdrawn. -/
theorem withdraw_refuses (ids : List ResourceId) :
    Refuses [.notFound] (inv.withdraw owner ids) := by
  unfold withdraw
  split
  · exact .error rfl
  · exact .ok _

end Inventory

-- ================================================================= places

namespace Places

variable (ps : Places) (name : String) (date : Timestamp)

/-- A place has to exist. -/
theorem get_refuses : Refuses [.notFound] (ps.get name) := by
  unfold get
  split
  · exact .ok _
  · exact .error rfl

/-- To be edited it has to be free as well. -/
theorem getUnheld_refuses :
    Refuses [.notFound, .inUse] (ps.getUnheld name) := by
  unfold getUnheld
  refine .bind ((ps.get_refuses name).mono (by decide)) fun p => ?_
  split
  · exact .error rfl
  · exact .ok _

/-- A name may be ill-formed or taken. -/
theorem create_refuses (patterns : List ResourcePattern)
    (tags : Table String String) :
    Refuses [.invalidRequest, .alreadyExists]
      (ps.create name patterns tags date) := by
  unfold create
  split
  · exact .error rfl
  · split
    · exact .error rfl
    · exact .ok _

/-- A held place is not deleted. -/
theorem delete_refuses : Refuses [.notFound, .inUse] (ps.delete name) :=
  .bind (ps.getUnheld_refuses name) fun _ => .ok _

/-- A held place is unavailable, and so is one whose resources are. -/
theorem acquire_refuses (holder : Holder) (inv : Inventory)
    (available : Resource → Bool) :
    Refuses [.notFound, .unavailable]
      (ps.acquire name holder inv available date) := by
  unfold acquire
  refine .bind ((ps.get_refuses name).mono (by decide)) fun p => ?_
  cases p.holder with
  | some h => exact .error rfl
  | none =>
    dsimp only
    split
    · exact .error rfl
    · split
      · exact .error rfl
      · exact .ok _

/-- A place is given back by its holder, unless by force. -/
theorem release_refuses (session : SessionId) (force : Bool) :
    Refuses [.notFound, .notOwner]
      (ps.release name session force date) := by
  unfold release
  refine .bind ((ps.get_refuses name).mono (by decide)) fun p => ?_
  split
  · exact .error rfl
  · split
    · exact .error rfl
    · exact .ok _

/-- A place has no pattern twice. -/
theorem addMatch_refuses (pattern : ResourcePattern) :
    Refuses [.notFound, .inUse, .alreadyExists]
      (ps.addMatch name pattern date) := by
  unfold addMatch
  refine .bind ((ps.getUnheld_refuses name).mono (by decide)) fun p => ?_
  split
  · exact .error rfl
  · exact .ok _

/-- A pattern that a place does not have cannot be taken from it. -/
theorem deleteMatch_refuses (pattern : ResourcePattern) :
    Refuses [.notFound, .inUse] (ps.deleteMatch name pattern date) := by
  unfold deleteMatch
  refine .bind (ps.getUnheld_refuses name) fun p => ?_
  split
  · exact .error rfl
  · exact .ok _

/-- Tags may be set while a place is held. -/
theorem setTags_refuses (tags : Table String String) :
    Refuses [.notFound] (ps.setTags name tags date) :=
  .bind (ps.get_refuses name) fun _ => .ok _

/-- And so may the comment. -/
theorem setComment_refuses (comment : String) :
    Refuses [.notFound] (ps.setComment name comment date) :=
  .bind (ps.get_refuses name) fun _ => .ok _

end Places

-- =========================================================== reservations

namespace Queue

variable (q : Queue) (id : String) (session : SessionId) (now : Moment)

/-- A reservation belongs to the session that made it. -/
theorem getOwned_refuses :
    Refuses [.notFound, .notOwner] (q.getOwned id session) := by
  unfold getOwned getEntry
  refine .bind ?_ fun e => ?_
  · split
    · exact .ok _
    · exact .error rfl
  · split
    · exact .error rfl
    · exact .ok _

/-- A reservation has to wish for something. -/
theorem create_refuses (owner : Holder) (filters : List ResourcePattern)
    (priority : Int) :
    Refuses [.invalidRequest] (q.create owner filters priority now) := by
  unfold create
  split
  · exact .error rfl
  · exact .ok _

/-- What has come to its end may be cancelled again. -/
theorem cancel_refuses :
    Refuses [.notFound, .notOwner] (q.cancel id session now) := by
  unfold cancel
  refine .bind (q.getOwned_refuses id session) fun e => ?_
  split
  · exact .ok _
  · exact .ok _

/-- And may be polled. -/
theorem poll_refuses :
    Refuses [.notFound, .notOwner] (q.poll id session now) := by
  unfold poll
  refine .bind (q.getOwned_refuses id session) fun e => ?_
  split
  · exact .ok _
  · exact .ok _

end Queue

-- ================================================================= roster

namespace Roster

variable (r : Roster) (now : Moment)

/-- Only a session that is not live is stale. -/
theorem heartbeat_refuses (id : SessionId) :
    Refuses [.staleSession] (r.heartbeat id now) := by
  unfold heartbeat get
  refine .bind ?_ fun _ => .ok _
  split
  · exact .ok _
  · exact .error rfl

end Roster

end LabLease
