import CounselReady.Sample
import CounselReady.Framework.Run
import CounselReady.Specs.Queue
import CounselReady.Guarantees.Backoff

/-! # The Life of a Job

    A job is counted when it is claimed and tested when it fails. In every run
    of the four operations the count is the number of claims, the number of
    failures lags one behind while the job is out, and the budget is spent
    exactly when the job is given up.
-/

namespace CounselReady

open Relational Framework Handler

variable {past : List (Call × Committed)} {w : Committed}

/-! ### What a run has done to a job -/

def claimed_by : QueueOp → Except Exc (Option Job) → Option Job
  | .claim_next _, .ok job => job
  | _, _ => none

def failed_by : QueueOp → Except Exc (Option Job) → Option Uuid
  | .mark_failed job _ _, .ok _ => some job.id
  | _, _ => none

/-- The job a call has claimed, its transaction committed. -/
def claimed (e : Call × Committed) : Option Job := claimed_by e.1.op (e.1.result e.2)

/-- The job a call has failed. -/
def failed (e : Call × Committed) : Option Uuid := failed_by e.1.op (e.1.result e.2)

def times_claimed (past : List (Call × Committed)) (id : Uuid) : Nat :=
  past.countP (fun e => (claimed e).any (fun j => j.id == id))

def times_failed (past : List (Call × Committed)) (id : Uuid) : Nat :=
  past.countP (fun e => failed e == some id)

/-- A job is marked while it is running, by someone an earlier claim handed it to. -/
def marks_claimed (past : List (Call × Committed)) (w : Committed) (c : Call) : Prop :=
  ∀ job, (c.op = .mark_succeeded job ∨ ∃ error now, c.op = .mark_failed job error now) →
    job ∈ w.db .job ∧ job.status = .running ∧
      ∃ e ∈ past, ∃ j, claimed e = some j ∧ j.id = job.id

/-! ### Attempts, claims and failures agree -/

/-- The attempts, the claims and the status of a job agree. -/
structure Tallied (claims failures : Nat) (j : Job) : Prop where
  budget : j.attempts ≤ max_attempts
  claims : j.attempts = claims
  queued : j.status = .queued → j.attempts < max_attempts ∧ failures = j.attempts
  running : j.status = .running → failures + 1 = j.attempts
  failed : j.status = .failed → j.attempts = max_attempts

/-- The job will not be touched any more. -/
def settled (j : Job) : Prop := j.status = .succeeded ∨ j.status = .failed

/-- What `claim_next(now)` returns. -/
def ClaimReturns (now : Nat) (jobs : List Job) : Option Job → Prop
  | none => ∀ j ∈ jobs, ¬ (j.status = .queued ∧ j.run_after ≤ now)
  | some claimed => ∃ job ∈ jobs, (job.status = .queued ∧ job.run_after ≤ now) ∧
      (∀ j ∈ jobs, j.status = .queued → j.run_after ≤ now → job.run_after ≤ j.run_after) ∧
      claimed = { job with status := .running, attempts := job.attempts + 1 }

theorem runnable_iff {now : Nat} {j : Job} :
    runnable now j = true ↔ j.status = .queued ∧ j.run_after ≤ now := by
  simp [runnable]

section one_job
variable {c f : Nat} {j : Job}

/-- A new job has been claimed and failed no times. -/
theorem Tallied.enqueue (id : Uuid) (kind : JobKind) (payload : String) (now : Nat) :
    Tallied 0 0 (new_job id kind payload now) := by
  constructor <;> simp [new_job, max_attempts]

/-- A claim is an attempt. -/
theorem Tallied.claim (h : Tallied c f j) (hqueued : j.status = .queued) :
    Tallied (c + 1) f (JobPatch.claim.apply j) := by
  obtain ⟨hbudget, hfailures⟩ := h.queued hqueued
  have hclaims := h.claims
  constructor
  · show j.attempts + 1 ≤ max_attempts
    omega
  · show j.attempts + 1 = c + 1
    omega
  · intro hqueued
    cases hqueued
  · intro _
    show f + 1 = j.attempts + 1
    omega
  · intro hfailed
    cases hfailed

/-- A success settles the job and counts nothing. -/
theorem Tallied.succeed (h : Tallied c f j) : Tallied c f (JobPatch.succeed.apply j) := by
  constructor
  · exact h.budget
  · exact h.claims
  · intro hqueued
    cases hqueued
  · intro hrunning
    cases hrunning
  · intro hfailed
    cases hfailed

/-- A failure with the budget spent is the last one. -/
theorem Tallied.give_up (h : Tallied c f j) (hspent : max_attempts ≤ j.attempts) (error : String) :
    Tallied c (f + 1) ((JobPatch.give_up error).apply j) := by
  have hbudget := h.budget
  constructor
  · exact hbudget
  · exact h.claims
  · intro hqueued
    cases hqueued
  · intro hrunning
    cases hrunning
  · intro _
    show j.attempts = max_attempts
    omega

/-- A failure within the budget puts the job back, with as many failures as
    attempts. -/
theorem Tallied.requeue (h : Tallied c f j) (hrunning : j.status = .running)
    (hleft : ¬ max_attempts ≤ j.attempts) (error : String) (run_after : Nat) :
    Tallied c (f + 1) ((JobPatch.requeue error run_after).apply j) := by
  have hfailures := h.running hrunning
  constructor
  · exact h.budget
  · exact h.claims
  · intro _
    show j.attempts < max_attempts ∧ f + 1 = j.attempts
    omega
  · intro hrunning
    cases hrunning
  · intro hfailed
    cases hfailed

/-- A failure of a running job, within the budget or not. -/
theorem Tallied.fail (h : Tallied c f j) (hrunning : j.status = .running) (error : String)
    (now : Nat) : Tallied c (f + 1) ((failure j error now).apply j) := by
  unfold failure
  by_cases hspent : max_attempts ≤ j.attempts
  · rw [if_pos hspent]
    exact h.give_up hspent _
  · rw [if_neg hspent]
    exact h.requeue hrunning hspent _ _

end one_job

/-! ### What a call does to one job -/

section change
variable {jobs jobs' : List Job} {op : QueueOp} {r : Except Exc (Option Job)}

theorem mem_patch_job {id : Uuid} {p : JobPatch} {j : Job} (h : j ∈ patch_job id p jobs) :
    ∃ j₀ ∈ jobs, (j₀.id ≠ id ∧ j = j₀) ∨ (j₀.id = id ∧ j = p.apply j₀) := by
  obtain ⟨j₀, hj₀, rfl⟩ := List.mem_map.mp h
  refine ⟨j₀, hj₀, ?_⟩
  by_cases hid : j₀.id = id
  · exact .inr ⟨hid, Schema.patched_of_eq hid⟩
  · exact .inl ⟨hid, Schema.patched_of_ne hid⟩

theorem mem_patch_job_of_ne {id : Uuid} {p : JobPatch} {j : Job} (hj : j ∈ jobs)
    (hne : j.id ≠ id) : j ∈ patch_job id p jobs :=
  List.mem_map.mpr ⟨j, hj, Schema.patched_of_ne hne⟩

theorem mem_patch_job_of_eq {p : JobPatch} {j : Job} (hj : j ∈ jobs) :
    p.apply j ∈ patch_job j.id p jobs :=
  List.mem_map.mpr ⟨j, hj, Schema.patched_of_eq rfl⟩

/-- One job for each id. -/
def one_each (jobs : List Job) : Prop := ∀ a ∈ jobs, ∀ b ∈ jobs, a.id = b.id → a = b

/-- The job that a mark operation is about is in the table and running. -/
def marks_running (jobs : List Job) (op : QueueOp) : Prop :=
  ∀ job, (op = .mark_succeeded job ∨ ∃ error now, op = .mark_failed job error now) →
    job ∈ jobs ∧ job.status = .running

/-- A job no call is about stays as it is: one that is not running, and not claimed. -/
theorem JobChange.keeps (h : JobChange jobs op r jobs') (hone : one_each jobs)
    (hmarks : marks_running jobs op) {j : Job} (hj : j ∈ jobs) (hstatus : j.status ≠ .running)
    (hclaim : ∀ c, claimed_by op r = some c → c.id ≠ j.id) : j ∈ jobs' := by
  have hmarked : ∀ job, job ∈ jobs ∧ job.status = .running → j.id ≠ job.id := by
    rintro job ⟨hjob, hrunning⟩ hid
    rw [hone j hj job hjob hid] at hstatus
    exact hstatus hrunning
  cases h with
  | refused op e => exact hj
  | idle now nothing_due => exact hj
  | enqueued id kind payload now new => exact List.mem_append_left _ hj
  | claimed now job mem due least =>
    exact mem_patch_job_of_ne hj (fun hid => hclaim _ rfl hid.symm)
  | succeeded job =>
    exact mem_patch_job_of_ne hj (hmarked job (hmarks job (.inl rfl)))
  | failed job error now =>
    exact mem_patch_job_of_ne hj (hmarked job (hmarks job (.inr ⟨error, now, rfl⟩)))

/-- A settled job is not claimed, and so it stays. -/
theorem JobChange.keeps_settled (h : JobChange jobs op r jobs') (hone : one_each jobs)
    (hmarks : marks_running jobs op) {j : Job} (hj : j ∈ jobs) (hset : settled j) : j ∈ jobs' := by
  refine h.keeps hone hmarks hj ?_ ?_
  · rcases hset with hs | hs <;> simp [hs]
  · intro c hc hid
    cases h with
    | claimed now job mem due least =>
      obtain rfl := Option.some.inj hc
      obtain rfl : job = j := hone job mem j hj hid
      rw [runnable_iff] at due
      rcases hset with hs | hs <;> simp [hs] at due
    | refused op e => cases op <;> cases hc
    | idle now nothing_due => cases hc
    | enqueued id kind payload now new => cases hc
    | succeeded job => cases hc
    | failed job error now => cases hc

/-- One more for the job the call is about. -/
def tally (id : Uuid) (about : Option Uuid) : Nat := if about = some id then 1 else 0

@[simp] theorem tally_none (id : Uuid) : tally id none = 0 := rfl

@[simp] theorem tally_self (id : Uuid) : tally id (some id) = 1 := if_pos rfl

theorem tally_of_ne {id about : Uuid} (h : id ≠ about) : tally id (some about) = 0 :=
  if_neg (fun heq => h (Option.some.inj heq).symm)

@[simp] theorem id_apply (p : JobPatch) (j : Job) : (p.apply j).id = j.id := by
  cases p <;> rfl

/-- Counts after an UPDATE of one job that changes the counts of that job only. -/
theorem counted_patched {job : Job} {p : JobPatch} {claims failures : Uuid → Nat}
    (claims' failures' : Uuid → Nat) (hone : one_each jobs) (hmem : job ∈ jobs)
    (hcounted : ∀ j ∈ jobs, Tallied (claims j.id) (failures j.id) j)
    (habsent : ∀ id, (∀ j ∈ jobs, Job.id j ≠ id) → claims id = 0 ∧ failures id = 0)
    (hother : ∀ id, id ≠ job.id → claims' id = claims id ∧ failures' id = failures id)
    (hjob : Tallied (claims' job.id) (failures' job.id) (p.apply job)) :
    (∀ j ∈ patch_job job.id p jobs, Tallied (claims' j.id) (failures' j.id) j) ∧
    ∀ id, (∀ j ∈ patch_job job.id p jobs, Job.id j ≠ id) → claims' id = 0 ∧ failures' id = 0 := by
  constructor
  · intro j hj
    obtain ⟨j₀, hj₀, ⟨hne, rfl⟩ | ⟨hid, rfl⟩⟩ := mem_patch_job hj
    · obtain ⟨hclaims, hfailures⟩ := hother j.id hne
      rw [hclaims, hfailures]
      exact hcounted j hj₀
    · obtain rfl : j₀ = job := hone j₀ hj₀ job hmem hid
      rw [id_apply]
      exact hjob
  · intro id hnone
    have hne : id ≠ job.id := by
      intro heq
      exact hnone _ (mem_patch_job_of_eq hmem) ((id_apply p job).trans heq.symm)
    obtain ⟨hclaims, hfailures⟩ := hother id hne
    rw [hclaims, hfailures]
    refine habsent id fun j hj heq => ?_
    exact hnone j (mem_patch_job_of_ne hj (fun h => hne (heq.symm.trans h))) heq

/-- **Step.** The counts of every job stay right, those of jobs yet unknown too. -/
theorem JobChange.counts (h : JobChange jobs op r jobs') (hone : one_each jobs)
    (hmarks : marks_running jobs op) {claims failures : Uuid → Nat}
    (hcounted : ∀ j ∈ jobs, Tallied (claims j.id) (failures j.id) j)
    (habsent : ∀ id, (∀ j ∈ jobs, Job.id j ≠ id) → claims id = 0 ∧ failures id = 0) :
    (∀ j ∈ jobs', Tallied (claims j.id + tally j.id ((claimed_by op r).map Job.id))
      (failures j.id + tally j.id (failed_by op r)) j) ∧
    ∀ id, (∀ j ∈ jobs', Job.id j ≠ id) →
      claims id + tally id ((claimed_by op r).map Job.id) = 0 ∧
        failures id + tally id (failed_by op r) = 0 := by
  cases h with
  | refused op e =>
    have hclaim : claimed_by op (.error e) = none := by cases op <;> rfl
    have hfail : failed_by op (.error e) = none := by cases op <;> rfl
    simpa only [hclaim, hfail, Option.map_none, tally_none, Nat.add_zero] using
      ⟨hcounted, habsent⟩
  | idle now nothing_due =>
    simpa only [claimed_by, failed_by, Option.map_none, tally_none, Nat.add_zero] using
      ⟨hcounted, habsent⟩
  | enqueued id kind payload now new =>
    simp only [claimed_by, failed_by, Option.map_none, tally_none, Nat.add_zero]
    constructor
    · intro j hj
      rcases List.mem_append.mp hj with hold | hnew
      · exact hcounted j hold
      · obtain rfl := List.mem_singleton.mp hnew
        obtain ⟨hclaims, hfailures⟩ := habsent id new
        have hid : (new_job id kind payload now).id = id := rfl
        rw [hid, hclaims, hfailures]
        exact .enqueue id kind payload now
    · intro id' hnone
      exact habsent id' fun j hj => hnone j (List.mem_append_left _ hj)
  | claimed now job mem due least =>
    rw [runnable_iff] at due
    simp only [claimed_by, failed_by, Option.map_some, id_apply, tally_none, Nat.add_zero]
    refine counted_patched (fun id => claims id + tally id (some job.id)) failures hone mem
      hcounted habsent ?_ ?_
    · intro id hne
      simp only [tally_of_ne hne, Nat.add_zero, and_self]
    · rw [tally_self]
      exact (hcounted job mem).claim due.1
  | succeeded job =>
    obtain ⟨hmem, hrunning⟩ := hmarks job (.inl rfl)
    simp only [claimed_by, failed_by, Option.map_none, tally_none, Nat.add_zero]
    exact counted_patched claims failures hone hmem hcounted habsent (fun _ _ => ⟨rfl, rfl⟩)
      (hcounted job hmem).succeed
  | failed job error now =>
    obtain ⟨hmem, hrunning⟩ := hmarks job (.inr ⟨error, now, rfl⟩)
    simp only [claimed_by, failed_by, Option.map_none, tally_none, Nat.add_zero]
    refine counted_patched claims (fun id => failures id + tally id (some job.id)) hone hmem
      hcounted habsent ?_ ?_
    · intro id hne
      simp only [tally_of_ne hne, Nat.add_zero, and_self]
    · rw [tally_self]
      exact (hcounted job hmem).fail hrunning error now

end change

/-! ### Runs -/

/-- What holds of the jobs along a run. -/
structure QueueSound (past : List (Call × Committed)) (w : Committed) : Prop where
  consistent : schema.Consistent w.db
  fitting : schema.Fitting w.db
  counted : ∀ j ∈ w.db .job, Tallied (times_claimed past (Job.id j)) (times_failed past (Job.id j)) j
  absent : ∀ id, (∀ j ∈ w.db .job, Job.id j ≠ id) →
    times_claimed past id = 0 ∧ times_failed past id = 0
  kept : ∀ e ∈ past, ∀ j ∈ e.2.db .job, settled j → j ∈ w.db .job

theorem one_each_of_consistent (hc : schema.Consistent w.db) : one_each (w.db .job) :=
  fun _ ha _ hb hid => hc.eq_of_pk ha hb hid

theorem marks_running_of_claimed {c : Call} (h : marks_claimed past w c) :
    marks_running (w.db .job) c.op := by
  intro job hop
  obtain ⟨hmem, hrunning, _⟩ := h job hop
  exact ⟨hmem, hrunning⟩

theorem times_claimed_cons (c : Call) (id : Uuid) :
    times_claimed ((c, w) :: past) id =
      times_claimed past id + tally id ((claimed_by c.op (c.result w)).map Job.id) := by
  unfold times_claimed claimed
  rw [List.countP_cons]
  congr 1
  cases claimed_by c.op (c.result w) with
  | none => rfl
  | some j => simp [tally]

theorem times_failed_cons (c : Call) (id : Uuid) :
    times_failed ((c, w) :: past) id =
      times_failed past id + tally id (failed_by c.op (c.result w)) := by
  unfold times_failed failed
  rw [List.countP_cons]
  congr 1
  simp [tally]

theorem QueueSound.step (h : QueueSound past w) {c : Call} (hmarks : marks_claimed past w c) :
    QueueSound ((c, w) :: past) (c.after w) := by
  have hone := one_each_of_consistent h.consistent
  have hrunning := marks_running_of_claimed hmarks
  have hsound := get_session_sound c.env c.op.program h.consistent
  obtain ⟨hcounted, habsent⟩ := (c.change w).counts hone hrunning h.counted h.absent
  refine ⟨hsound.1, hsound.2 h.fitting, ?_, ?_, ?_⟩
  · intro j hj
    rw [times_claimed_cons, times_failed_cons]
    exact hcounted j hj
  · intro id hnone
    rw [times_claimed_cons, times_failed_cons]
    exact habsent id hnone
  · intro e he j hj hset
    rcases List.mem_cons.mp he with rfl | hearlier
    · exact (c.change w).keeps_settled hone hrunning hj hset
    · exact (c.change w).keeps_settled hone hrunning (h.kept e hearlier j hj hset) hset

theorem queue_sound (hr : Run calls marks_claimed .empty past w) : QueueSound past w := by
  refine hr.invariant (I := QueueSound) ?_ ?_
  · constructor
    · exact Schema.consistent_empty
    · intro t r hr
      cases hr
    · intro j hj
      cases hj
    · intro id _
      exact ⟨rfl, rfl⟩
    · intro e he
      cases he
  · rintro past w c w' _ hsound hmarks rfl
    exact hsound.step hmarks

/-! ### Claims -/

theorem claim_returns {now : Nat} {env : Env} {r : Option Job}
    (h : Call.result ⟨env, .claim_next now⟩ w = .ok r) : ClaimReturns now (w.db .job) r := by
  have hchange := Call.change ⟨env, .claim_next now⟩ w
  rw [h] at hchange
  generalize (Call.after ⟨env, .claim_next now⟩ w).db .job = jobs' at hchange
  cases hchange with
  | idle now nothing_due =>
    intro j hj hdue
    have hrun := nothing_due j hj
    rw [runnable_iff.mpr hdue] at hrun
    cases hrun
  | claimed now job mem due least =>
    refine ⟨job, mem, runnable_iff.mp due, ?_, rfl⟩
    intro j hj hqueued htime
    exact least j hj (runnable_iff.mpr ⟨hqueued, htime⟩)

/-- A job that is there can be claimed. -/
theorem claim_admitted {db : Database} (hfit : schema.Fitting db) {job : Job}
    (hmem : job ∈ db .job) : schema.check db (.update .job job.id .claim) = none := by
  refine Schema.check_update_of ⟨job, hmem, rfl⟩ ?_ ?_
  · intro j hj _
    exact hfit .job j hj
  · intro j _ _ j' _ _
    rfl

/-- A claim that meets no fault returns. -/
theorem claim_total {now : Nat} {env : Env} (hfit : schema.Fitting w.db)
    (hfaults : env.faults = []) (hcommits : env.commits = true) :
    ∃ r, Call.result ⟨env, .claim_next now⟩ w = .ok r := by
  let P : Except Exc (Option Job) → Committed → Prop := fun r _ => ∃ job, r = .ok job
  have hreturns : wps (claim_next now) (fun r _ => ∃ job, r = .ok job) (w.begin env) := by
    refine wps_select_bind ?_
    cases hsorted : order_by (fun a b : Job => decide (a.run_after ≤ b.run_after))
        (((w.begin env).db .job).filter
          (fun j : Job => j.status == .queued && decide (j.run_after ≤ now))) with
    | nil => exact (Prog.wp_pure _).mpr ⟨none, rfl⟩
    | cons job rest =>
      have hmem := (head_least hsorted).1
      have hok := claim_admitted hfit hmem
      refine wps_bind ((wp_execute_clean hfaults).mpr ?_)
      rw [Committed.begin_db, hok]
      exact (Prog.wp_pure _).mpr ⟨_, rfl⟩
  have hP : P (get_session env (claim_next now) w).1 (get_session env (claim_next now) w).2 := by
    refine get_session_wps (wps_mono hreturns ?_)
    rintro r s' ⟨job, rfl⟩
    refine ⟨fun _ => ⟨job, rfl⟩, fun hno => ?_⟩
    rw [hcommits] at hno
    cases hno
  exact hP

/-! ### After a failure -/

/-- **Run.** A job that failed within its budget waits for its backoff, until it is
    claimed again. The induction is on the steps since. -/
theorem requeued_waits {later earlier : List (Call × Committed)} {c : Call} {v : Committed}
    {job : Job} {error : String} {t : Nat} {r : Option Job}
    (hr : Run calls marks_claimed .empty (later ++ (c, v) :: earlier) w)
    (hop : c.op = .mark_failed job error t) (hok : c.result v = .ok r)
    (hbudget : job.attempts < max_attempts)
    (hclaim : ∀ e ∈ later, ∀ j, claimed e = some j → Job.id j ≠ job.id) :
    ∃ j ∈ w.db .job, Job.id j = job.id ∧ Job.status j = .queued ∧
      Job.run_after j = t + backoff_for job.attempts := by
  generalize hpast : later ++ (c, v) :: earlier = past at hr
  induction hr generalizing later with
  | start => simp at hpast
  | @next past w w' c' hprev hmarks hstep ih =>
    have hone := one_each_of_consistent (queue_sound hprev).consistent
    have hrunning := marks_running_of_claimed hmarks
    have hchange := c'.change w
    subst hstep
    cases later with
    | nil =>
      -- the failure itself was the last step
      obtain ⟨hhead, rfl⟩ := List.cons.inj hpast
      obtain ⟨rfl, rfl⟩ := Prod.mk.inj hhead
      rw [hok, hop] at hchange
      have hjob := (hmarks job (.inr ⟨error, t, hop⟩)).1
      generalize (c.after v).db .job = jobs' at hchange
      cases hchange with
      | failed job error now =>
        refine ⟨_, mem_patch_job_of_eq hjob, id_apply _ _, ?_⟩
        unfold failure
        rw [if_neg (by omega)]
        exact ⟨rfl, rfl⟩
    | cons e later =>
      obtain ⟨rfl, htail⟩ := List.cons.inj hpast
      obtain ⟨j, hj, hid, hqueued, htime⟩ :=
        ih (fun e he => hclaim e (List.mem_cons_of_mem _ he)) htail
      refine ⟨j, ?_, hid, hqueued, htime⟩
      refine hchange.keeps hone hrunning hj (by simp [hqueued]) ?_
      intro job' hjob'
      rw [hid]
      exact hclaim _ List.mem_cons_self job' hjob'

/-! ### The guarantee -/

/-- **Job queue lifecycle.** In every run of the four operations the attempts of a job
    are the claims of it and stay within the budget, a job given up has spent its
    budget and a settled one is not touched again; a claim returns the job that has
    been due longest, and nothing only when nothing is due; and a job that has
    failed `k` times is due after the backoff for `k`. -/
theorem job_queue_lifecycle (hr : Run calls marks_claimed .empty past w) :
    (∀ j ∈ w.db .job, Job.attempts j ≤ max_attempts ∧
      Job.attempts j = times_claimed past (Job.id j) ∧
      (Job.status j = .queued → Job.attempts j < max_attempts) ∧
      (Job.status j = .running → 1 ≤ Job.attempts j) ∧
      (Job.status j = .failed → Job.attempts j = max_attempts)) ∧
    (∀ e ∈ past, ∀ j ∈ e.2.db .job, settled j → j ∈ w.db .job) ∧
    (∀ env now, (∀ r, Call.result ⟨env, .claim_next now⟩ w = .ok r →
        ClaimReturns now (w.db .job) r) ∧
      (env.faults = [] → env.commits = true →
        ∃ r, Call.result ⟨env, .claim_next now⟩ w = .ok r)) ∧
    ∀ later earlier c v job error t r, past = later ++ (c, v) :: earlier →
      c.op = .mark_failed job error t → c.result v = .ok r →
      ∀ k, k = times_failed earlier job.id + 1 → k < max_attempts →
      (∀ e ∈ later, ∀ j, claimed e = some j → Job.id j ≠ job.id) →
        ∃ j ∈ w.db .job, Job.id j = job.id ∧ ∀ now, runnable now j = true ↔
          t + min (30 * second * 2 ^ (k - 1)) (30 * 60 * second) ≤ now := by
  have hsound := queue_sound hr
  refine ⟨?_, hsound.kept, ?_, ?_⟩
  · intro j hj
    have hcounted := hsound.counted j hj
    refine ⟨hcounted.budget, hcounted.claims, fun hq => (hcounted.queued hq).1, ?_, hcounted.failed⟩
    intro hrunning
    have hfailures := hcounted.running hrunning
    omega
  · intro env now
    exact ⟨fun r h => claim_returns h, claim_total hsound.fitting⟩
  · rintro later earlier c v job error t r rfl hop hok k hk hbudget hclaim
    -- the failures up to now are the attempts
    obtain ⟨hearlier, hmarks⟩ := hr.split
    obtain ⟨hmem, hrunning, _⟩ := hmarks job (.inr ⟨error, t, hop⟩)
    have hfailures := ((queue_sound hearlier).counted job hmem).running hrunning
    have hattempts : job.attempts = k := by omega
    obtain ⟨j, hj, hid, hqueued, htime⟩ := requeued_waits hr hop hok (by omega) hclaim
    refine ⟨j, hj, hid, fun now => ?_⟩
    rw [runnable_iff, htime, hattempts, backoff_for_nat (by omega)]
    simp [hqueued]

/-- A job as its first claim hands it out. -/
def first_claim : Job :=
  JobPatch.claim.apply (new_job 7#128 .ocr_document "payload" (100 * second))

/-- A job is enqueued, claimed and failed, latest call first. -/
def failed_once : List Call :=
  [⟨Sample.env 3 (102 * second), .mark_failed first_claim "ocr_engine_failed" (102 * second)⟩,
   ⟨Sample.env 2 (101 * second), .claim_next (101 * second)⟩,
   ⟨Sample.env 1 (100 * second), .enqueue 7#128 .ocr_document "payload" (100 * second)⟩]

/-- It is due half a minute later. -/
theorem failed_once_waits :
    ∃ j ∈ (trail Call.after .empty failed_once).2.db .job, Job.attempts j = 1 ∧
      ∀ now, runnable now j = true ↔ 132 * second ≤ now := by
  have hrun : Run calls marks_claimed .empty (trail Call.after .empty failed_once).1
      (trail Call.after .empty failed_once).2 := by
    refine .next _ (.next _ (.next _ .start ?_ rfl) ?_ rfl) ?_ rfl
    · rintro job (hop | ⟨error, now, hop⟩) <;> cases hop
    · rintro job (hop | ⟨error, now, hop⟩) <;> cases hop
    · rintro job (hop | ⟨error, now, hop⟩) <;> cases hop
      have hclaimed : ∃ e ∈ (trail Call.after .empty failed_once.tail).1,
          claimed e = some first_claim := by
        refine ⟨_, List.mem_cons_self, ?_⟩
        rfl
      obtain ⟨e, he, hjob⟩ := hclaimed
      refine ⟨by decide +kernel, rfl, e, he, first_claim, hjob, rfl⟩
  have hall := job_queue_lifecycle hrun
  obtain ⟨j, hj, hid, hdue⟩ := hall.2.2.2 [] _ _ _ first_claim _ _ none rfl rfl rfl 1 rfl
    (by decide) (fun e he => by cases he)
  refine ⟨j, hj, ?_, hdue⟩
  rw [(hall.1 j hj).2.1, hid]
  decide +kernel

end CounselReady
