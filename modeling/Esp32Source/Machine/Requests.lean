import Mathlib.Data.List.Pairwise

/-!
# Requests to a server that is busy at times

A server that is free serves the next request.  Requests that come until the
service ends are lost.

Where the requests come in bursts, and a service that begins with a burst ends
between it and the next one, there is one service for each burst, and all that
is lost are the other requests of the bursts.
-/

namespace Esp32Source.Machine

universe u

section Requests

variable {Job : Type u} {requests : Nat → Prop} {begins ends : Job → Nat}
  {free : Nat} {burst : Nat × Nat} {bursts : List (Nat × Nat)}
  {job : Job} {jobs : List Job}

/-- The services of a server that is free behind the time `free`. -/
inductive Served (requests : Nat → Prop) (begins ends : Job → Nat) :
    Nat → List Job → Prop where
  | quiet {free : Nat}
      (noRequest : ∀ time, free < time → ¬ requests time) :
      Served requests begins ends free []
  | serves {free : Nat} {job : Job} {later : List Job}
      (behind : free < begins job) (isRequest : requests (begins job))
      (isFirst : ∀ time, free < time → requests time → begins job ≤ time)
      (goesOn : Served requests begins ends (ends job) later) :
      Served requests begins ends free (job :: later)

/-- The requests behind the time `free` come in bursts, which are given with
the time of their first request and a time at which they are over. -/
structure Bursts (requests : Nat → Prop) (free : Nat)
    (bursts : List (Nat × Nat)) : Prop where
  behind : ∀ burst, burst ∈ bursts → free < burst.1
  isRequest : ∀ burst, burst ∈ bursts → requests burst.1
  within : ∀ time, free < time → requests time →
    ∃ burst, burst ∈ bursts ∧ burst.1 ≤ time ∧ time < burst.2

/-- If the service begins with a burst, it ends behind that burst and in front
of the next one. -/
def EndsBetween (begins ends : Job → Nat) (bursts : List (Nat × Nat))
    (job : Job) : Prop :=
  ∀ burst, burst ∈ bursts → begins job = burst.1 →
    burst.2 ≤ ends job ∧
      ∀ other, other ∈ bursts → burst.1 < other.1 → ends job < other.1

theorem Served.isRequest_of_mem
    (served : Served requests begins ends free jobs) (member : job ∈ jobs) :
    requests (begins job) := by
  induction served with
  | quiet noRequest =>
      cases member
  | serves behind isRequest isFirst goesOn inductionHypothesis =>
      rcases List.mem_cons.mp member with isHead | inLater
      · rw [isHead]
        exact isRequest
      · exact inductionHypothesis inLater

/-- A service begins when the server is free. -/
theorem Served.lt_begins (served : Served requests begins ends free jobs)
    (positive : ∀ job, job ∈ jobs → begins job ≤ ends job)
    (member : job ∈ jobs) : free < begins job := by
  induction served with
  | quiet noRequest =>
      cases member
  | serves behind isRequest isFirst goesOn inductionHypothesis =>
      rw [List.forall_mem_cons] at positive
      rcases List.mem_cons.mp member with isHead | inLater
      · rw [isHead]
        exact behind
      · have isLater := inductionHypothesis positive.2 inLater
        omega

/-- The first burst begins with the first request. -/
theorem Bursts.le_of_request (comes : Bursts requests free (burst :: bursts))
    (ordered : (burst :: bursts).Pairwise fun one later => one.1 < later.1)
    {time : Nat} (behind : free < time) (isRequest : requests time) :
    burst.1 ≤ time := by
  obtain ⟨found, member, atMost, _⟩ := comes.within time behind isRequest
  rcases List.mem_cons.mp member with isFirst | inLater
  · rw [← isFirst]
    exact atMost
  · have later := (List.pairwise_cons.mp ordered).1 found inLater
    omega

/-- Behind the first burst there are the others. -/
theorem Bursts.tail (comes : Bursts requests free (burst :: bursts))
    {next : Nat} (isBehind : burst.2 ≤ next) (goesOn : free ≤ next)
    (inFront : ∀ later, later ∈ bursts → next < later.1) :
    Bursts requests next bursts where
  behind := inFront
  isRequest later member :=
    comes.isRequest later (List.mem_cons_of_mem burst member)
  within := by
    intro time behind isRequest
    obtain ⟨found, member, atMost, inside⟩ :=
      comes.within time (by omega) isRequest
    rcases List.mem_cons.mp member with isFirst | inLater
    · rw [isFirst] at inside
      omega
    · exact ⟨found, inLater, atMost, inside⟩

theorem EndsBetween.tail
    (between : EndsBetween begins ends (burst :: bursts) job) :
    EndsBetween begins ends bursts job := by
  intro found member isFound
  obtain ⟨isBehind, inFront⟩ :=
    between found (List.mem_cons_of_mem burst member) isFound
  exact ⟨isBehind, fun later inLater =>
    inFront later (List.mem_cons_of_mem burst inLater)⟩

/-- The server serves exactly the first request of each burst. -/
theorem Bursts.served_iff (comes : Bursts requests free bursts)
    (ordered : bursts.Pairwise fun one later => one.1 < later.1)
    (lasting : ∀ burst, burst ∈ bursts → burst.1 ≤ burst.2)
    (between : ∀ job, job ∈ jobs → EndsBetween begins ends bursts job) :
    Served requests begins ends free jobs ↔
      jobs.map begins = bursts.map Prod.fst := by
  induction bursts generalizing free jobs with
  | nil =>
      have noRequest (time : Nat) (behind : free < time) :
          ¬ requests time := by
        intro isRequest
        obtain ⟨_, member, _⟩ := comes.within time behind isRequest
        cases member
      constructor
      · intro served
        cases served with
        | quiet _ =>
            rfl
        | serves behind isRequest _ _ =>
            exact absurd isRequest (noRequest _ behind)
      · intro same
        rw [List.map_eq_nil_iff.mp same]
        exact .quiet noRequest
  | cons burst bursts inductionHypothesis =>
      have afterFree := comes.behind burst List.mem_cons_self
      have isRequest := comes.isRequest burst List.mem_cons_self
      obtain ⟨others, orderedTail⟩ := List.pairwise_cons.mp ordered
      rw [List.forall_mem_cons] at lasting
      -- what is left for a server that has served the first burst
      have goesOn {job : Job} {later : List Job}
          (isFirst : begins job = burst.1)
          (within : ∀ other, other ∈ job :: later →
            EndsBetween begins ends (burst :: bursts) other) :
          Served requests begins ends (ends job) later ↔
            later.map begins = bursts.map Prod.fst := by
        obtain ⟨isBehind, inFront⟩ :=
          within job List.mem_cons_self burst List.mem_cons_self isFirst
        refine inductionHypothesis ?_ orderedTail lasting.2 ?_
        · apply comes.tail isBehind (by omega)
          intro other member
          exact inFront other (List.mem_cons_of_mem burst member)
            (others other member)
        · intro other member
          exact (within other (List.mem_cons_of_mem job member)).tail
      constructor
      · intro served
        cases served with
        | quiet noRequest =>
            exact absurd isRequest (noRequest burst.1 afterFree)
        | serves behind isRequested isFirst served =>
            have isStart := Nat.le_antisymm
              (isFirst burst.1 afterFree isRequest)
              (comes.le_of_request ordered behind isRequested)
            rw [List.map_cons, List.map_cons, isStart,
              (goesOn isStart between).mp served]
      · intro same
        obtain ⟨job, later, isCons, isStart, sameLater⟩ :=
          List.map_eq_cons_iff.mp same
        subst isCons
        refine .serves ?_ ?_ ?_ ((goesOn isStart between).mpr sameLater)
        · rw [isStart]
          exact afterFree
        · rw [isStart]
          exact isRequest
        · intro time behind requested
          rw [isStart]
          exact comes.le_of_request ordered behind requested

end Requests

/-- What services bring is known from the requests that they begin with. -/
theorem filterMap_of_map_eq {Job Request Key Value : Type*}
    {key : Job → Key} {requestKey : Request → Key}
    {brings : Job → Option Value} {value : Request → Value}
    {jobs : List Job} {requested : List Request}
    (same : jobs.map key = requested.map requestKey)
    (agrees : ∀ job, job ∈ jobs → ∀ request, request ∈ requested →
      key job = requestKey request → brings job = some (value request)) :
    jobs.filterMap brings = requested.map value := by
  induction jobs generalizing requested with
  | nil =>
      rw [List.map_nil] at same
      rw [List.map_eq_nil_iff.mp same.symm]
      rfl
  | cons job jobs inductionHypothesis =>
      obtain ⟨request, later, isCons, sameKey, sameLater⟩ :=
        List.map_eq_cons_iff.mp same.symm
      subst isCons
      have brought := agrees job List.mem_cons_self request
        List.mem_cons_self sameKey.symm
      rw [List.filterMap_cons_some brought, List.map_cons,
        inductionHypothesis sameLater.symm]
      intro other isOther laterRequest isLater
      exact agrees other (List.mem_cons_of_mem job isOther) laterRequest
        (List.mem_cons_of_mem request isLater)

end Esp32Source.Machine
