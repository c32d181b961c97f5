import CounselReady.Guarantees.JobQueue

/-! # Workers That Die

    A worker claims a job, works on it and marks it in one transaction, so that
    a worker that dies gives its job back. With the job it gives back the attempt
    that the claim had counted: a job whose work kills its worker is started again
    for ever. While no worker dies at its work, the budget bounds the starts.
-/

namespace CounselReady

open Relational Framework Handler Prog

/-! ### Workers and their transactions -/

/-- A transaction in flight: the job as its claim returned it. -/
structure Held where
  worker : Nat
  job : Job
  working : Bool

/-- The committed rows, and what the workers are in the middle of. -/
structure Crew where
  committed : Committed
  held : List Held

inductive CrewAction where
  | enqueue (env : Env) (id : Uuid) (kind : JobKind) (payload : String) (now : Nat)
  | claim (worker now : Nat)
  /-- the worker starts the work of its job -/
  | start (worker : Nat)
  | succeed (worker : Nat)
  | fail (worker : Nat) (error : String) (now : Nat)
  | die (worker : Nat)

namespace Crew

def jobs (c : Crew) : List Job := c.committed.db .job

/-- What a claim sees: `FOR UPDATE SKIP LOCKED` passes over the rows held. -/
def unlocked (c : Crew) : Session :=
  ⟨c.committed.db.set .job (c.jobs.filter (fun j : Job => c.held.all (fun h => h.job.id != j.id))),
    c.committed.ext, []⟩

/-- What the transaction of a worker sees: the committed rows and its own claim. -/
def own_view (c : Crew) (job : Job) : Session :=
  ⟨schema.effect (.update .job job.id .claim) c.committed.db, c.committed.ext, []⟩

def started (c : Crew) (worker : Nat) : List Held :=
  c.held.map (fun h => if h.worker = worker then { h with working := true } else h)

/-- The transaction of the worker is over. -/
def released (c : Crew) (worker : Nat) : List Held := c.held.filter (fun h => h.worker != worker)

end Crew

inductive CrewStep : Crew → CrewAction → Crew → Prop where
  | enqueue {c : Crew} (env : Env) (id : Uuid) (kind : JobKind) (payload : String) (now : Nat) :
      CrewStep c (.enqueue env id kind payload now)
        ⟨Call.after ⟨env, .enqueue id kind payload now⟩ c.committed, c.held⟩
  | claim {c : Crew} (worker now : Nat) {job : Job} {s : Session}
      (free : ∀ h ∈ c.held, h.worker ≠ worker)
      (claims : (claim_next now).exec (perform schema run_ext) c.unlocked = (.ok (some job), s)) :
      CrewStep c (.claim worker now) ⟨c.committed, ⟨worker, job, false⟩ :: c.held⟩
  | start {c : Crew} {h : Held} (mem : h ∈ c.held) (idle : h.working = false) :
      CrewStep c (.start h.worker) ⟨c.committed, c.started h.worker⟩
  | succeed {c : Crew} {h : Held} {s : Session} (mem : h ∈ c.held) (worked : h.working = true)
      (marks : (mark_succeeded h.job).exec (perform schema run_ext) (c.own_view h.job) =
        (.ok (), s)) :
      CrewStep c (.succeed h.worker) ⟨⟨s.db, s.ext⟩, c.released h.worker⟩
  | fail {c : Crew} {h : Held} {s : Session} (error : String) (now : Nat) (mem : h ∈ c.held)
      (worked : h.working = true)
      (marks : (mark_failed h.job error now).exec (perform schema run_ext) (c.own_view h.job) =
        (.ok (), s)) :
      CrewStep c (.fail h.worker error now) ⟨⟨s.db, s.ext⟩, c.released h.worker⟩
  /-- the transaction is rolled back -/
  | die {c : Crew} {h : Held} (mem : h ∈ c.held) :
      CrewStep c (.die h.worker) ⟨c.committed, c.released h.worker⟩

/-- Nobody works, and nothing is queued. -/
def Crew.idle : Crew := ⟨.empty, []⟩

/-! ### What a run has done to a job -/

/-- The job whose work the step starts. -/
def starts_job : CrewAction × Crew → Option Uuid
  | (.start worker, c) => (c.held.find? (fun h => h.worker == worker)).map (fun h => h.job.id)
  | _ => none

/-- The job whose work the step breaks off: its worker dies at it. -/
def abandons_job : CrewAction × Crew → Option Uuid
  | (.die worker, c) =>
      (c.held.find? (fun h => h.worker == worker)).bind
        (fun h => if h.working then some h.job.id else none)
  | _ => none

/-- How often the work of the job has been started. -/
def times_started (past : List (CrewAction × Crew)) (id : Uuid) : Nat :=
  past.countP (fun e => starts_job e == some id)

/-- How often a worker has died at the work of the job. -/
def times_abandoned (past : List (CrewAction × Crew)) (id : Uuid) : Nat :=
  past.countP (fun e => abandons_job e == some id)

/-- The step breaks no work off: the transaction it ends commits, or had not yet
    started its work. -/
def survives (_ : List (CrewAction × Crew)) (c : Crew) (a : CrewAction) : Prop :=
  abandons_job (a, c) = none

/-! ### What the operations do here -/

section steps
variable {c : Crew}

theorem unlocked_jobs (c : Crew) : c.unlocked.db .job =
    c.jobs.filter (fun j : Job => c.held.all (fun h => h.job.id != j.id)) := by
  unfold Crew.unlocked
  exact Db.set_self c.committed.db Table.job _

/-- A claim takes a job that is due and that nobody holds. -/
theorem claim_spec {now : Nat} {job : Job} {s : Session}
    (h : (claim_next now).exec (perform schema run_ext) c.unlocked = (.ok (some job), s)) :
    ∃ j ∈ c.jobs, j.status = .queued ∧ job = JobPatch.claim.apply j ∧
      ∀ h ∈ c.held, h.job.id ≠ j.id := by
  let Q : Except Exc (Option Job) → Session → Prop := fun r _ => ∀ job, r = .ok (some job) →
    ∃ j ∈ c.jobs, j.status = .queued ∧ job = JobPatch.claim.apply j ∧
      ∀ h ∈ c.held, h.job.id ≠ j.id
  have hQ : wps (claim_next now) Q c.unlocked := by
    refine wps_claim_next ?_ ?_ ?_
    · intro v s' job heq
      cases heq
    · intro _ job heq
      cases heq
    · intro j s' hmem hdue _ _ job heq
      obtain rfl : JobPatch.claim.apply j = job := Option.some.inj (Except.ok.inj heq)
      have hseen : j ∈ c.jobs.filter (fun j : Job => c.held.all (fun h => h.job.id != j.id)) := by
        rwa [unlocked_jobs] at hmem
      obtain ⟨hj, hfree⟩ := List.mem_filter.mp hseen
      refine ⟨j, hj, (runnable_iff.mp hdue).1, rfl, ?_⟩
      simpa using hfree
  exact wp_exec hQ h job rfl

/-- A mark leaves the claim and the mark on the job's row. -/
theorem mark_spec {p : Handler Unit} {patch : JobPatch} {job : Job} {s : Session}
    (hp : p = update .job job.id patch)
    (h : p.exec (perform schema run_ext) (c.own_view job) = (.ok (), s)) :
    s.db .job = patch_job job.id patch (patch_job job.id .claim c.jobs) := by
  let Q : Except Exc Unit → Session → Prop := fun r s' => r = .ok () →
    s'.db .job = patch_job job.id patch (patch_job job.id .claim c.jobs)
  have hQ : wps (update .job job.id patch) Q (c.own_view job) := by
    refine wps_execute ?_ ?_
    · intro v heq
      cases heq
    · intro _ _
      show schema.effect (.update .job job.id patch) (schema.effect (.update .job job.id .claim)
        c.committed.db) .job = _
      rw [effect_patch_job, effect_patch_job]
      rfl
  rw [hp] at h
  exact wp_exec hQ h rfl

end steps

/-! ### Starts and attempts -/

/-- Somebody is working on the job. -/
def busy (held : List Held) (id : Uuid) : Bool := held.any (fun h => h.working && h.job.id == id)

/-- No job runs in the committed rows, and a queued one has attempts left. -/
structure Waiting (j : Job) : Prop where
  status : j.status ≠ .running
  budget : j.attempts ≤ max_attempts
  queued : j.status = .queued → j.attempts < max_attempts

/-- The transactions in flight hold different jobs, each queued and claimed once more. -/
structure Claims (jobs : List Job) (held : List Held) : Prop where
  apart : held.Pairwise (fun a b => a.worker ≠ b.worker ∧ a.job.id ≠ b.job.id)
  claimed : ∀ h ∈ held, ∃ j ∈ jobs, j.status = .queued ∧ h.job = JobPatch.claim.apply j

/-- Along a run a job's starts are its attempts, one more while somebody works on it,
    and one more for every worker that died at it. -/
structure CrewSound (past : List (CrewAction × Crew)) (c : Crew) : Prop where
  one : one_each c.jobs
  waiting : ∀ j ∈ c.jobs, Waiting j
  claims : Claims c.jobs c.held
  starts : ∀ j ∈ c.jobs, times_started past (Job.id j) =
    j.attempts + (busy c.held (Job.id j)).toNat + times_abandoned past (Job.id j)
  absent : ∀ id, (∀ j ∈ c.jobs, Job.id j ≠ id) →
    times_started past id = 0 ∧ times_abandoned past id = 0

section held
variable {jobs : List Job} {held : List Held}

theorem Claims.eq_of_worker (hc : Claims jobs held) {a b : Held} (ha : a ∈ held) (hb : b ∈ held)
    (h : a.worker = b.worker) : a = b :=
  Schema.eq_of_pairwise hc.apart ha hb (fun hne => hne.1 h) (fun hne => hne.1 h.symm)

theorem Claims.eq_of_job (hc : Claims jobs held) {a b : Held} (ha : a ∈ held) (hb : b ∈ held)
    (h : a.job.id = b.job.id) : a = b :=
  Schema.eq_of_pairwise hc.apart ha hb (fun hne => hne.2 h) (fun hne => hne.2 h.symm)

theorem busy_iff {id : Uuid} :
    busy held id = true ↔ ∃ h ∈ held, h.working = true ∧ h.job.id = id := by
  simp [busy]

theorem Claims.filter (hc : Claims jobs held) (p : Held → Bool) : Claims jobs (held.filter p) where
  apart := hc.apart.filter p
  claimed := fun h hh => hc.claimed h (List.mem_filter.mp hh).1

theorem Claims.find (hc : Claims jobs held) {h : Held} (hh : h ∈ held) :
    held.find? (fun k => k.worker == h.worker) = some h := by
  cases hfind : held.find? (fun k => k.worker == h.worker) with
  | none =>
    have hno := List.find?_eq_none.mp hfind h hh
    simp at hno
  | some k =>
    have hworker : k.worker = h.worker := by simpa using List.find?_some hfind
    rw [hc.eq_of_worker (List.mem_of_find?_eq_some hfind) hh hworker]

/-- The job of a transaction in flight is queued in the committed rows. -/
theorem Claims.row (hc : Claims jobs held) {h : Held} (hh : h ∈ held) :
    ∃ j ∈ jobs, Job.id j = h.job.id ∧ j.status = .queued := by
  obtain ⟨j, hj, hqueued, hjob⟩ := hc.claimed h hh
  exact ⟨j, hj, by rw [hjob, id_apply], hqueued⟩

/-- The jobs of the transactions in flight are as they were. -/
theorem Claims.mono {jobs' : List Job} (hc : Claims jobs held)
    (hkeep : ∀ h ∈ held, ∀ j ∈ jobs, h.job.id = j.id → j ∈ jobs') : Claims jobs' held where
  apart := hc.apart
  claimed := by
    intro h hh
    obtain ⟨j, hj, hqueued, hjob⟩ := hc.claimed h hh
    refine ⟨j, hkeep h hh j hj ?_, hqueued, hjob⟩
    rw [hjob, id_apply]

end held

theorem one_each_patch {jobs : List Job} {id : Uuid} {p : JobPatch} (h : one_each jobs) :
    one_each (patch_job id p jobs) := by
  intro a ha b hb hid
  obtain ⟨a₀, ha₀, rfl⟩ := List.mem_map.mp ha
  obtain ⟨b₀, hb₀, rfl⟩ := List.mem_map.mp hb
  have hpk : ∀ j : Job, schema.pk .job (schema.patched .job id p j) = j.id := by
    intro j
    exact Schema.pk_patched _ _ _ _
  have hsame : a₀.id = b₀.id := (hpk a₀).symm.trans (hid.trans (hpk b₀))
  rw [h a₀ ha₀ b₀ hb₀ hsame]

section sound
variable {past : List (CrewAction × Crew)} {c : Crew}

theorem times_started_cons (a : CrewAction) (id : Uuid) :
    times_started ((a, c) :: past) id = times_started past id + tally id (starts_job (a, c)) := by
  unfold times_started
  rw [List.countP_cons]
  congr 1
  simp [tally]

theorem times_abandoned_cons (a : CrewAction) (id : Uuid) :
    times_abandoned ((a, c) :: past) id =
      times_abandoned past id + tally id (abandons_job (a, c)) := by
  unfold times_abandoned
  rw [List.countP_cons]
  congr 1
  simp [tally]

/-- The step leaves the jobs as they were; what it changes about who is at work it
    counts as a start or as a death. -/
theorem CrewSound.quiet (h : CrewSound past c) {a : CrewAction} {c' : Crew}
    (hjobs : c'.jobs = c.jobs) (hclaims : Claims c'.jobs c'.held)
    (hcount : ∀ id, (busy c.held id).toNat + tally id (starts_job (a, c)) =
      (busy c'.held id).toNat + tally id (abandons_job (a, c)))
    (habout : ∀ id, (∀ j ∈ c.jobs, Job.id j ≠ id) →
      tally id (starts_job (a, c)) = 0 ∧ tally id (abandons_job (a, c)) = 0) :
    CrewSound ((a, c) :: past) c' := by
  refine ⟨?_, ?_, hclaims, ?_, ?_⟩
  · rw [hjobs]
    exact h.one
  · rw [hjobs]
    exact h.waiting
  · intro j hj
    rw [hjobs] at hj
    have hstarts := h.starts j hj
    have hstep := hcount (Job.id j)
    rw [times_started_cons, times_abandoned_cons]
    omega
  · intro id hnone
    rw [hjobs] at hnone
    obtain ⟨hstarts, habandoned⟩ := h.absent id hnone
    obtain ⟨hstart, habandon⟩ := habout id hnone
    rw [times_started_cons, times_abandoned_cons]
    omega

/-- Who is at work on a job, one transaction apart. -/
theorem busy_of_ne (h : CrewSound past c) {hd : Held} (hmem : hd ∈ c.held) {held' : List Held}
    (hothers : ∀ k, k.worker ≠ hd.worker → (k ∈ held' ↔ k ∈ c.held))
    (hown : ∀ k ∈ held', k.worker = hd.worker → k.job.id = hd.job.id) {id : Uuid}
    (hne : id ≠ hd.job.id) : busy held' id = busy c.held id := by
  rw [Bool.eq_iff_iff, busy_iff, busy_iff]
  constructor
  · rintro ⟨k, hk, hworking, rfl⟩
    have hworker : k.worker ≠ hd.worker := fun heq => hne (hown k hk heq)
    exact ⟨k, (hothers k hworker).mp hk, hworking, rfl⟩
  · rintro ⟨k, hk, hworking, rfl⟩
    have hworker : k.worker ≠ hd.worker := by
      intro heq
      rw [h.claims.eq_of_worker hk hmem heq] at hne
      exact hne rfl
    exact ⟨k, (hothers k hworker).mpr hk, hworking, rfl⟩

theorem busy_held (h : CrewSound past c) {hd : Held} (hmem : hd ∈ c.held) :
    busy c.held hd.job.id = hd.working := by
  rw [Bool.eq_iff_iff, busy_iff]
  constructor
  · rintro ⟨k, hk, hworking, hid⟩
    rwa [h.claims.eq_of_job hk hmem hid] at hworking
  · intro hworking
    exact ⟨hd, hmem, hworking, rfl⟩

theorem mem_started {worker : Nat} {k : Held} (hk : k ∈ c.started worker) :
    ∃ k₀ ∈ c.held, k.worker = k₀.worker ∧ k.job = k₀.job := by
  obtain ⟨k₀, hk₀, rfl⟩ := List.mem_map.mp hk
  refine ⟨k₀, hk₀, ?_⟩
  split <;> exact ⟨rfl, rfl⟩

theorem mem_started_of_ne {worker : Nat} {k : Held} (hne : k.worker ≠ worker) :
    k ∈ c.started worker ↔ k ∈ c.held := by
  constructor
  · intro hk
    obtain ⟨k₀, hk₀, rfl⟩ := List.mem_map.mp hk
    split at hne
    · next heq => exact absurd heq hne
    · next heq => rwa [if_neg heq]
  · intro hk
    exact List.mem_map.mpr ⟨k, hk, if_neg hne⟩

theorem mem_released {worker : Nat} {k : Held} :
    k ∈ c.released worker ↔ k ∈ c.held ∧ k.worker ≠ worker := by
  simp [Crew.released]

/-- The transaction that is over was nobody's but the worker's. -/
theorem busy_released (h : CrewSound past c) {hd : Held} (hmem : hd ∈ c.held) {id : Uuid}
    (hne : id ≠ hd.job.id) : busy (c.released hd.worker) id = busy c.held id := by
  refine busy_of_ne h hmem ?_ ?_ hne
  · intro k hk
    rw [mem_released]
    exact and_iff_left hk
  · intro k hk hworker
    exact absurd hworker (mem_released.mp hk).2

theorem free_released (h : CrewSound past c) {hd : Held} (hmem : hd ∈ c.held) :
    busy (c.released hd.worker) hd.job.id = false := by
  rw [Bool.eq_false_iff]
  intro hb
  obtain ⟨k, hk, _, hkid⟩ := busy_iff.mp hb
  obtain ⟨hk, hne⟩ := mem_released.mp hk
  rw [h.claims.eq_of_job hk hmem hkid] at hne
  exact hne rfl

/-- The transaction of a worker that has done its work commits. -/
theorem CrewSound.commit (h : CrewSound past c) {a : CrewAction} {c' : Crew} {hd : Held}
    {p : JobPatch} (hstart : starts_job (a, c) = none) (habandon : abandons_job (a, c) = none)
    (hmem : hd ∈ c.held) (hworked : hd.working = true)
    (hjobs : c'.jobs = patch_job hd.job.id p (patch_job hd.job.id .claim c.jobs))
    (hheld : c'.held = c.released hd.worker)
    (hwaiting : Waiting (p.apply hd.job)) (hattempts : (p.apply hd.job).attempts = hd.job.attempts) :
    CrewSound ((a, c) :: past) c' := by
  have hsame : ∀ id, times_started ((a, c) :: past) id = times_started past id := by
    intro id
    rw [times_started_cons, hstart, tally_none, Nat.add_zero]
  have hsame' : ∀ id, times_abandoned ((a, c) :: past) id = times_abandoned past id := by
    intro id
    rw [times_abandoned_cons, habandon, tally_none, Nat.add_zero]
  obtain ⟨j₀, hj₀, hqueued, hjob⟩ := h.claims.claimed hd hmem
  have hid : hd.job.id = j₀.id := by rw [hjob, id_apply]
  -- each job is the one it was, or the one that was worked on
  have hcases : ∀ j ∈ c'.jobs, (j ∈ c.jobs ∧ j.id ≠ hd.job.id) ∨ j = p.apply hd.job := by
    intro j hj
    rw [hjobs] at hj
    obtain ⟨j₁, hj₁, ⟨hne, rfl⟩ | ⟨heq, rfl⟩⟩ := mem_patch_job hj
    · obtain ⟨j₂, hj₂, ⟨_, rfl⟩ | ⟨heq₂, rfl⟩⟩ := mem_patch_job hj₁
      · exact .inl ⟨hj₂, hne⟩
      · rw [id_apply] at hne
        exact absurd heq₂ hne
    · obtain ⟨j₂, hj₂, ⟨hne₂, rfl⟩ | ⟨heq₂, rfl⟩⟩ := mem_patch_job hj₁
      · exact absurd heq hne₂
      · obtain rfl : j₂ = j₀ := h.one j₂ hj₂ j₀ hj₀ (heq₂.trans hid)
        exact .inr (by rw [hjob])
  have hother : ∀ j ∈ c.jobs, j.id ≠ hd.job.id → j ∈ c'.jobs := by
    intro j hj hne
    rw [hjobs]
    exact mem_patch_job_of_ne (mem_patch_job_of_ne hj hne) hne
  have hbusy : ∀ id, id ≠ hd.job.id → busy c'.held id = busy c.held id := by
    intro id hne
    rw [hheld]
    exact busy_released h hmem hne
  have hfree : busy c'.held hd.job.id = false := by
    rw [hheld]
    exact free_released h hmem
  have hbusy₀ : busy c.held hd.job.id = true := (busy_held h hmem).trans hworked
  refine ⟨?_, ?_, ?_, ?_, ?_⟩
  · rw [hjobs]
    exact one_each_patch (one_each_patch h.one)
  · intro j hj
    rcases hcases j hj with ⟨hold, _⟩ | rfl
    · exact h.waiting j hold
    · exact hwaiting
  · have hfilter : Claims c.jobs c'.held := by
      rw [hheld]
      exact h.claims.filter _
    refine hfilter.mono ?_
    intro k hk j hj hkid
    rw [hheld] at hk
    obtain ⟨hk, hworker⟩ := mem_released.mp hk
    refine hother j hj fun heq => hworker ?_
    rw [h.claims.eq_of_job hk hmem (hkid.trans heq)]
  · intro j hj
    rw [hsame, hsame']
    rcases hcases j hj with ⟨hold, hne⟩ | rfl
    · rw [hbusy _ hne]
      exact h.starts j hold
    · have hstarts := h.starts j₀ hj₀
      rw [← hid, hbusy₀] at hstarts
      have hclaimed : hd.job.attempts = j₀.attempts + 1 := by rw [hjob]; rfl
      rw [id_apply, hfree, hattempts, hstarts, hclaimed]
      rfl
  · intro id hnone
    rw [hsame, hsame']
    refine h.absent id fun j hj heq => ?_
    by_cases hne : j.id = hd.job.id
    · have hpatched : p.apply hd.job ∈ c'.jobs := by
        rw [hjobs, hjob, id_apply]
        have hclaimed := mem_patch_job_of_eq (p := .claim) hj₀
        have hboth := mem_patch_job_of_eq (p := p) hclaimed
        rwa [id_apply] at hboth
      exact hnone _ hpatched ((id_apply _ _).trans (hne.symm.trans heq))
    · exact hnone j (hother j hj hne) heq

/-- A transaction of its own that adds a job, or nothing. -/
theorem CrewSound.enqueue (h : CrewSound past c) (env : Env) (id : Uuid) (kind : JobKind)
    (payload : String) (now : Nat) :
    CrewSound ((.enqueue env id kind payload now, c) :: past)
      ⟨Call.after ⟨env, .enqueue id kind payload now⟩ c.committed, c.held⟩ := by
  have hchange := Call.change ⟨env, .enqueue id kind payload now⟩ c.committed
  generalize hjobs : (Call.after ⟨env, .enqueue id kind payload now⟩ c.committed).db .job =
    jobs' at hchange
  generalize Call.result ⟨env, .enqueue id kind payload now⟩ c.committed = r at hchange
  cases hchange with
  | refused op e =>
    have hsame : Crew.jobs ⟨Call.after ⟨env, .enqueue id kind payload now⟩ c.committed, c.held⟩ =
        c.jobs := hjobs
    refine h.quiet hsame ?_ (fun id => rfl) (fun id _ => ⟨rfl, rfl⟩)
    rw [hsame]
    exact h.claims
  | enqueued id kind payload now new =>
    have hnew : Crew.jobs ⟨Call.after ⟨env, .enqueue id kind payload now⟩ c.committed, c.held⟩ =
        c.jobs ++ [new_job id kind payload now] := hjobs
    have hid : (new_job id kind payload now).id = id := rfl
    have hstarted : ∀ id', times_started ((.enqueue env id kind payload now, c) :: past) id' =
        times_started past id' := by
      intro id'
      rw [times_started_cons]
      rfl
    have habandoned : ∀ id', times_abandoned ((.enqueue env id kind payload now, c) :: past) id' =
        times_abandoned past id' := by
      intro id'
      rw [times_abandoned_cons]
      rfl
    -- nobody can be at work on a job that was not there
    have hidle : busy c.held id = false := by
      rw [Bool.eq_false_iff]
      intro hb
      obtain ⟨k, hk, _, hkid⟩ := busy_iff.mp hb
      obtain ⟨j, hj, hjid, _⟩ := h.claims.row hk
      exact new j hj (hjid.trans hkid)
    refine ⟨?_, ?_, ?_, ?_, ?_⟩
    · rw [hnew]
      intro a ha b hb hab
      rcases List.mem_append.mp ha with ha | ha <;> rcases List.mem_append.mp hb with hb | hb
      · exact h.one a ha b hb hab
      · obtain rfl := List.mem_singleton.mp hb
        exact absurd hab (new a ha)
      · obtain rfl := List.mem_singleton.mp ha
        exact absurd hab.symm (new b hb)
      · rw [List.mem_singleton.mp ha, List.mem_singleton.mp hb]
    · rw [hnew]
      intro j hj
      rcases List.mem_append.mp hj with hold | hadded
      · exact h.waiting j hold
      · obtain rfl := List.mem_singleton.mp hadded
        constructor <;> simp [new_job, max_attempts]
    · rw [hnew]
      refine h.claims.mono ?_
      intro k _ j hj _
      exact List.mem_append_left _ hj
    · rw [hnew]
      intro j hj
      rw [hstarted, habandoned]
      rcases List.mem_append.mp hj with hold | hadded
      · exact h.starts j hold
      · obtain rfl := List.mem_singleton.mp hadded
        obtain ⟨hzero, hzero'⟩ := h.absent id new
        rw [hid, hzero, hzero', hidle]
        rfl
    · rw [hnew]
      intro id' hnone
      rw [hstarted, habandoned]
      exact h.absent id' fun j hj => hnone j (List.mem_append_left _ hj)

/-- A claim is seen by nobody until its transaction commits. -/
theorem CrewSound.claim (h : CrewSound past c) {worker now : Nat} {job : Job} {s : Session}
    (hfree : ∀ k ∈ c.held, k.worker ≠ worker)
    (hclaims : (claim_next now).exec (perform schema run_ext) c.unlocked = (.ok (some job), s)) :
    CrewSound ((.claim worker now, c) :: past) ⟨c.committed, ⟨worker, job, false⟩ :: c.held⟩ := by
  obtain ⟨j, hj, hqueued, rfl, hskipped⟩ := claim_spec hclaims
  refine h.quiet rfl ⟨?_, ?_⟩ (fun id => rfl) (fun id _ => ⟨rfl, rfl⟩)
  · refine List.pairwise_cons.mpr ⟨?_, h.claims.apart⟩
    intro k hk
    refine ⟨(hfree k hk).symm, ?_⟩
    rw [id_apply]
    exact (hskipped k hk).symm
  · intro k hk
    rcases List.mem_cons.mp hk with rfl | hold
    · exact ⟨j, hj, hqueued, rfl⟩
    · exact h.claims.claimed k hold

/-- A worker starts the work of its job. -/
theorem CrewSound.start (h : CrewSound past c) {hd : Held} (hmem : hd ∈ c.held)
    (hidle : hd.working = false) :
    CrewSound ((.start hd.worker, c) :: past) ⟨c.committed, c.started hd.worker⟩ := by
  have hstart : starts_job (.start hd.worker, c) = some hd.job.id := by
    show (c.held.find? (fun k => k.worker == hd.worker)).map _ = _
    rw [h.claims.find hmem]
    rfl
  have hown : ∀ k ∈ c.started hd.worker, k.worker = hd.worker → k.job.id = hd.job.id := by
    intro k hk hworker
    obtain ⟨k₀, hk₀, hworker₀, hjob⟩ := mem_started hk
    rw [hjob, h.claims.eq_of_worker hk₀ hmem (hworker₀.symm.trans hworker)]
  refine h.quiet rfl ⟨?_, ?_⟩ ?_ ?_
  · refine List.pairwise_map.mpr (h.claims.apart.imp ?_)
    intro a b hab
    split <;> split <;> exact hab
  · intro k hk
    obtain ⟨k₀, hk₀, _, hjob⟩ := mem_started hk
    rw [hjob]
    exact h.claims.claimed k₀ hk₀
  · intro id
    show _ = _ + tally id none
    rw [hstart, tally_none, Nat.add_zero]
    by_cases hid : id = hd.job.id
    · subst hid
      have hbusy : busy (c.started hd.worker) hd.job.id = true := by
        rw [busy_iff]
        exact ⟨_, List.mem_map.mpr ⟨hd, hmem, if_pos rfl⟩, rfl, rfl⟩
      rw [busy_held h hmem, hidle, hbusy, tally_self]
      rfl
    · rw [tally_of_ne hid, busy_of_ne h hmem (fun k hne => mem_started_of_ne hne) hown hid,
        Nat.add_zero]
  · intro id hnone
    rw [hstart]
    obtain ⟨j, hj, hjid, _⟩ := h.claims.row hmem
    exact ⟨tally_of_ne (fun heq => hnone j hj (hjid.trans heq.symm)), rfl⟩

/-- A worker dies, at its work or before it. -/
theorem CrewSound.die (h : CrewSound past c) {hd : Held} (hmem : hd ∈ c.held) :
    CrewSound ((.die hd.worker, c) :: past) ⟨c.committed, c.released hd.worker⟩ := by
  have habandon : abandons_job (.die hd.worker, c) =
      if hd.working then some hd.job.id else none := by
    show (c.held.find? (fun k => k.worker == hd.worker)).bind _ = _
    rw [h.claims.find hmem]
    rfl
  refine h.quiet rfl (h.claims.filter _) ?_ ?_
  · intro id
    show _ + tally id none = _
    rw [habandon, tally_none, Nat.add_zero]
    by_cases hid : id = hd.job.id
    · subst hid
      rw [busy_held h hmem, free_released h hmem]
      cases hd.working with
      | false => rfl
      | true => simp
    · rw [busy_released h hmem hid]
      split
      · rw [tally_of_ne hid, Nat.add_zero]
      · rfl
  · intro id hnone
    rw [habandon]
    refine ⟨rfl, ?_⟩
    obtain ⟨j, hj, hjid, _⟩ := h.claims.row hmem
    split
    · exact tally_of_ne (fun heq => hnone j hj (hjid.trans heq.symm))
    · rfl

theorem CrewSound.step (h : CrewSound past c) {a : CrewAction} {c' : Crew}
    (hstep : CrewStep c a c') : CrewSound ((a, c) :: past) c' := by
  -- a held job has been claimed within the budget
  have hheld : ∀ k ∈ c.held, k.job.attempts ≤ max_attempts := by
    intro k hk
    obtain ⟨j, hj, hqueued, hjob⟩ := h.claims.claimed k hk
    have hleft := (h.waiting j hj).queued hqueued
    have hattempts : k.job.attempts = j.attempts + 1 := by rw [hjob]; rfl
    omega
  cases hstep with
  | enqueue env id kind payload now => exact h.enqueue env id kind payload now
  | claim worker now free claims => exact h.claim free claims
  | start mem idle => exact h.start mem idle
  | die mem => exact h.die mem
  | @succeed k s mem worked marks =>
    refine h.commit (p := .succeed) rfl rfl mem worked (mark_spec rfl marks) rfl ?_ rfl
    constructor
    · intro hrunning
      cases hrunning
    · exact hheld k mem
    · intro hqueued
      cases hqueued
  | @fail k s error now mem worked marks =>
    have hmarks := mark_spec (mark_failed_eq k.job error now) marks
    refine h.commit rfl rfl mem worked hmarks rfl ?_ ?_
    · have hbudget := hheld k mem
      unfold failure
      by_cases hspent : max_attempts ≤ k.job.attempts
      · rw [if_pos hspent]
        constructor
        · intro hrunning
          cases hrunning
        · exact hbudget
        · intro hqueued
          cases hqueued
      · rw [if_neg hspent]
        constructor
        · intro hrunning
          cases hrunning
        · exact hbudget
        · intro _
          show k.job.attempts < max_attempts
          omega
    · unfold failure
      split <;> rfl

end sound

/-! ### Runs -/

theorem crew_sound {may : List (CrewAction × Crew) → Crew → CrewAction → Prop}
    {past : List (CrewAction × Crew)} {c : Crew} (hr : Run CrewStep may .idle past c) :
    CrewSound past c := by
  refine hr.invariant (I := CrewSound) ?_ ?_
  · refine ⟨?_, ?_, ⟨List.Pairwise.nil, ?_⟩, ?_, ?_⟩
    · intro a ha
      cases ha
    · intro j hj
      cases hj
    · intro k hk
      cases hk
    · intro j hj
      cases hj
    · intro id _
      exact ⟨rfl, rfl⟩
  · intro past c a c' _ hsound _ hstep
    exact hsound.step hstep

/-- Whatever happens to the workers, the starts beyond the budget are deaths at work. -/
theorem started_le {may : List (CrewAction × Crew) → Crew → CrewAction → Prop}
    {past : List (CrewAction × Crew)} {c : Crew} (hr : Run CrewStep may .idle past c) (id : Uuid) :
    times_started past id ≤ max_attempts + times_abandoned past id := by
  have hsound := crew_sound hr
  by_cases hthere : ∃ j ∈ c.jobs, Job.id j = id
  · obtain ⟨j, hj, rfl⟩ := hthere
    have hstarts := hsound.starts j hj
    have hwaiting := hsound.waiting j hj
    cases hbusy : busy c.held (Job.id j) with
    | false =>
      have hbudget := hwaiting.budget
      rw [hbusy, Bool.toNat_false] at hstarts
      omega
    | true =>
      -- the job somebody works on is queued in the committed rows
      obtain ⟨k, hk, _, hid⟩ := busy_iff.mp hbusy
      obtain ⟨j', hj', hid', hqueued⟩ := hsound.claims.row hk
      rw [hsound.one j' hj' j hj (hid'.trans hid)] at hqueued
      have hleft := hwaiting.queued hqueued
      rw [hbusy, Bool.toNat_true] at hstarts
      omega
  · obtain ⟨hzero, _⟩ := hsound.absent id fun j hj hid => hthere ⟨j, hj, hid⟩
    omega

/-- **Poison jobs.** In every run of any number of workers of whom none dies at its work,
    no job's work is started more often than the budget allows. -/
theorem starts_within_budget {past : List (CrewAction × Crew)} {c : Crew}
    (hr : Run CrewStep survives .idle past c) (id : Uuid) :
    times_started past id ≤ max_attempts := by
  have hnone : times_abandoned past id = 0 := by
    refine hr.invariant (I := fun past _ => times_abandoned past id = 0) rfl ?_
    intro past c a c' _ hzero hsurvives _
    rw [times_abandoned_cons, hzero, hsurvives, tally_none]
  have hle := started_le hr id
  omega

/-- One job is queued, and nobody works. -/
def one_queued : Crew :=
  ⟨Call.after ⟨Sample.env 1 (100 * second),
    .enqueue 7#128 .ocr_document "payload" (100 * second)⟩ .empty, []⟩

/-- Worker 1 holds it. -/
def one_held (working : Bool) : Crew := ⟨one_queued.committed, [⟨1, first_claim, working⟩]⟩

theorem one_queued_run {may : List (CrewAction × Crew) → Crew → CrewAction → Prop}
    (hmay : ∀ env id kind payload now, may [] .idle (.enqueue env id kind payload now)) :
    ∃ past, Run CrewStep may .idle past one_queued ∧ times_started past 7#128 = 0 :=
  ⟨_, .next _ .start (hmay _ _ _ _ _) (.enqueue _ _ _ _ _), rfl⟩

theorem one_claims : CrewStep one_queued (.claim 1 (101 * second)) (one_held false) := by
  have hclaim : ∃ s, (claim_next (101 * second)).exec (perform schema run_ext)
      one_queued.unlocked = (.ok (some first_claim), s) := ⟨_, rfl⟩
  obtain ⟨s, hclaim⟩ := hclaim
  exact .claim 1 _ (fun h hh => by cases hh) hclaim

theorem one_starts : CrewStep (one_held false) (.start 1) (one_held true) :=
  CrewStep.start (h := ⟨1, first_claim, false⟩) List.mem_cons_self rfl

theorem one_dies : CrewStep (one_held true) (.die 1) one_queued :=
  CrewStep.die (h := ⟨1, first_claim, true⟩) List.mem_cons_self

/-- A worker claims the job, works on it and marks it succeeded. -/
theorem worked_once :
    ∃ past c, Run CrewStep survives .idle past c ∧ times_started past 7#128 = 1 ∧
      times_started past 7#128 ≤ max_attempts := by
  obtain ⟨past, hr, hnone⟩ : ∃ past, Run CrewStep survives .idle past one_queued ∧ _ :=
    one_queued_run fun _ _ _ _ _ => rfl
  have hclaimed := hr.next (CrewAction.claim 1 (101 * second)) rfl one_claims
  have hstarted := hclaimed.next (CrewAction.start 1) rfl one_starts
  have hworked := hstarted.next (CrewAction.succeed 1) rfl
    (.succeed (h := ⟨1, first_claim, true⟩) List.mem_cons_self rfl rfl)
  refine ⟨_, _, hworked, ?_, starts_within_budget hworked 7#128⟩
  rw [times_started_cons, times_started_cons, times_started_cons, hnone]
  rfl

/-- Claim, start, die: the job is queued as it was, its attempts too. -/
theorem crash_loop {past : List (CrewAction × Crew)}
    (hr : Run CrewStep unrestricted .idle past one_queued) :
    ∃ past', Run CrewStep unrestricted .idle past' one_queued ∧
      times_started past' 7#128 = times_started past 7#128 + 1 := by
  have hstarted := (hr.next (.claim 1 _) trivial one_claims).next (.start 1) trivial one_starts
  refine ⟨_, hstarted.next (.die 1) trivial one_dies, ?_⟩
  rw [times_started_cons, times_started_cons, times_started_cons]
  rfl

theorem crash_loops (n : Nat) :
    ∃ past, Run CrewStep unrestricted .idle past one_queued ∧ times_started past 7#128 = n := by
  induction n with
  | zero => exact one_queued_run fun _ _ _ _ _ => trivial
  | succ n ih =>
    obtain ⟨past, hr, hn⟩ := ih
    obtain ⟨past', hr', hn'⟩ := crash_loop hr
    exact ⟨past', hr', by omega⟩

/-- Six workers die at the work of one job, and none of its attempts is spent. -/
theorem poison_job_started_again :
    ∃ past c, Run CrewStep unrestricted .idle past c ∧ max_attempts < times_started past 7#128 ∧
      ∀ j ∈ c.jobs, Job.status j = .queued ∧ Job.attempts j = 0 := by
  obtain ⟨past, hr, hn⟩ := crash_loops 6
  refine ⟨past, one_queued, hr, ?_, ?_⟩
  · rw [hn]
    decide
  · decide +kernel

end CounselReady
