import CounselReady.Specs.Ingest

/-! # What the Queue Does to Its Jobs

    Each operation of `app.jobs.queue`, in a transaction of its own, either
    leaves the jobs as they were or does one of five things to them
    (`JobChange`).
-/

namespace CounselReady

open Relational Framework Handler Prog

variable {env : Env} {s : Session}

/-! ### Operations -/

inductive QueueOp where
  | enqueue (id : Uuid) (kind : JobKind) (payload : String) (now : Nat)
  | claim_next (now : Nat)
  | mark_succeeded (job : Job)
  | mark_failed (job : Job) (error : String) (now : Nat)

/-- The operation, and the job it hands back. -/
def QueueOp.program : QueueOp → Handler (Option Job)
  | .enqueue id kind payload now => do
      let job ← CounselReady.enqueue id kind payload now
      pure (some job)
  | .claim_next now => CounselReady.claim_next now
  | .mark_succeeded job => do
      CounselReady.mark_succeeded job
      pure none
  | .mark_failed job error now => do
      CounselReady.mark_failed job error now
      pure none

/-- One operation with what its transaction meets. -/
structure Call where
  env : Env
  op : QueueOp

def Call.result (c : Call) (w : Committed) : Except Exc (Option Job) :=
  (get_session c.env c.op.program w).1

def Call.after (c : Call) (w : Committed) : Committed := (get_session c.env c.op.program w).2

/-- A call as a step relation. -/
def calls (w : Committed) (c : Call) (w' : Committed) : Prop := w' = c.after w

/-! ### What a call does -/

/-- The jobs the claim query selects. -/
def runnable (now : Nat) (j : Job) : Bool := j.status == .queued && decide (j.run_after ≤ now)

def new_job (id : Uuid) (kind : JobKind) (payload : String) (now : Nat) : Job where
  id := id
  kind := kind
  status := .queued
  payload := payload
  attempts := 0
  run_after := now
  last_error := none

def patch_job (id : Uuid) (p : JobPatch) (jobs : List Job) : List Job :=
  jobs.map (schema.patched .job id p)

/-- The error as the column keeps it. -/
def kept_error (error : String) : String := String.ofList (error.toList.take 120)

/-- `mark_failed`, before the UPDATE. -/
def failure (job : Job) (error : String) (now : Nat) : JobPatch :=
  if max_attempts ≤ job.attempts then .give_up (kept_error error)
  else .requeue (kept_error error) (now + backoff_for job.attempts)

theorem mark_failed_eq (job : Job) (error : String) (now : Nat) :
    mark_failed job error now = update .job job.id (failure job error now) := by
  unfold mark_failed failure kept_error
  dsimp only
  split <;> rfl

inductive JobChange (jobs : List Job) : QueueOp → Except Exc (Option Job) → List Job → Prop where
  | refused (op : QueueOp) (e : Exc) : JobChange jobs op (.error e) jobs
  | enqueued (id : Uuid) (kind : JobKind) (payload : String) (now : Nat)
      (new : ∀ j ∈ jobs, Job.id j ≠ id) :
      JobChange jobs (.enqueue id kind payload now) (.ok (some (new_job id kind payload now)))
        (jobs ++ [new_job id kind payload now])
  | idle (now : Nat) (nothing_due : ∀ j ∈ jobs, runnable now j = false) :
      JobChange jobs (.claim_next now) (.ok none) jobs
  | claimed (now : Nat) (job : Job) (mem : job ∈ jobs) (due : runnable now job = true)
      (least : ∀ j ∈ jobs, runnable now j = true → job.run_after ≤ j.run_after) :
      JobChange jobs (.claim_next now) (.ok (some (JobPatch.claim.apply job)))
        (patch_job job.id .claim jobs)
  | succeeded (job : Job) :
      JobChange jobs (.mark_succeeded job) (.ok none) (patch_job job.id .succeed jobs)
  | failed (job : Job) (error : String) (now : Nat) :
      JobChange jobs (.mark_failed job error now) (.ok none)
        (patch_job job.id (failure job error now) jobs)

theorem effect_patch_job (db : Database) (id : Uuid) (p : JobPatch) :
    schema.effect (.update .job id p) db .job = patch_job id p (db .job) :=
  Schema.effect_update_self _ _ _ _

/-- The first of the runnable jobs in the order of their time. -/
theorem head_least {jobs rest : List Job} {now : Nat} {job : Job}
    (h : order_by (fun a b : Job => decide (a.run_after ≤ b.run_after))
      (jobs.filter (runnable now)) = job :: rest) :
    job ∈ jobs ∧ runnable now job = true ∧
      ∀ j ∈ jobs, runnable now j = true → job.run_after ≤ j.run_after := by
  have hmem : ∀ j, j ∈ job :: rest ↔ j ∈ jobs ∧ runnable now j = true := by
    intro j
    rw [← h, mem_order_by, List.mem_filter]
  have hsorted := order_by_key Job.run_after (jobs.filter (runnable now))
  rw [h] at hsorted
  obtain ⟨hjob, hdue⟩ := (hmem job).mp List.mem_cons_self
  refine ⟨hjob, hdue, ?_⟩
  intro j hj hrun
  rcases List.mem_cons.mp ((hmem j).mpr ⟨hj, hrun⟩) with rfl | hin
  · exact Nat.le_refl _
  · exact (List.pairwise_cons.mp hsorted).1 j hin

theorem order_by_nil {jobs : List Job} {now : Nat}
    (h : order_by (fun a b : Job => decide (a.run_after ≤ b.run_after))
      (jobs.filter (runnable now)) = []) : ∀ j ∈ jobs, runnable now j = false := by
  intro j hj
  by_contra hrun
  have hmem : j ∈ order_by (fun a b : Job => decide (a.run_after ≤ b.run_after))
      (jobs.filter (runnable now)) :=
    mem_order_by.mpr (List.mem_filter.mpr ⟨hj, by simpa using hrun⟩)
  rw [h] at hmem
  cases hmem

section specs
variable {Q : Except Exc (Option Job) → Session → Prop}

theorem wps_claim_next {now : Nat} (hdb : ∀ v s', Q (.error (.database v)) s')
    (hidle : (∀ j ∈ s.db .job, runnable now j = false) → Q (.ok none) s)
    (hclaimed : ∀ job s', job ∈ s.db .job → runnable now job = true →
      (∀ j ∈ s.db .job, runnable now j = true → job.run_after ≤ Job.run_after j) →
      s'.db = schema.effect (.update .job job.id .claim) s.db →
      Q (.ok (some (JobPatch.claim.apply job))) s') :
    wps (claim_next now) Q s := by
  refine wps_select_bind ?_
  cases hsorted : order_by (fun a b : Job => decide (a.run_after ≤ b.run_after))
      ((s.db .job).filter (fun j : Job => j.status == .queued && decide (j.run_after ≤ now))) with
  | nil => exact (wp_pure _).mpr (hidle (order_by_nil hsorted))
  | cons job rest =>
    obtain ⟨hmem, hdue, hleast⟩ := head_least hsorted
    refine wps_execute_bind (fun v => hdb v _) fun _ => ?_
    exact (wp_pure _).mpr (hclaimed job _ hmem hdue hleast rfl)

end specs

/-- **Whatever the operation, the jobs change in one of the ways listed.** -/
theorem Call.change (c : Call) (w : Committed) :
    JobChange (w.db .job) c.op (c.result w) ((c.after w).db .job) := by
  obtain ⟨env, op⟩ := c
  let P : Except Exc (Option Job) → Committed → Prop := fun r w' =>
    JobChange (w.db .job) op r (w'.db .job)
  have hrefused : ∀ e, P (.error e) w := fun e => .refused op e
  suffices hwps : wps op.program (settles .commit_failed env.commits (w.met env) P)
      (w.begin env) by
    have hP : P (get_session env op.program w).1 (get_session env op.program w).2 :=
      get_session_wps hwps
    exact hP
  cases op with
  | enqueue id kind payload now =>
    refine wps_bind (wps_bind (wps_execute (fun v => hrefused _) fun hchk => ?_))
    refine (wp_pure _).mpr ((wp_pure _).mpr ⟨fun _ => ?_, fun _ => hrefused _⟩)
    obtain ⟨_, hnew, _⟩ := Schema.check_insert hchk
    show JobChange _ _ _ (schema.effect (.insert .job (new_job id kind payload now)) _ .job)
    rw [Schema.effect_insert_self]
    exact .enqueued id kind payload now fun j hj => (hnew j hj).1
  | claim_next now =>
    refine wps_claim_next (fun v s' => hrefused _) (fun hnone => ?_) ?_
    · exact ⟨fun _ => .idle now hnone, fun _ => hrefused _⟩
    · intro job s' hmem hdue hleast hs'
      refine ⟨fun _ => ?_, fun _ => hrefused _⟩
      show JobChange _ _ _ (s'.db .job)
      rw [hs', effect_patch_job]
      exact .claimed now job hmem hdue hleast
  | mark_succeeded job =>
    refine wps_bind (wps_execute (fun v => hrefused _) fun _ => ?_)
    refine (wp_pure _).mpr ⟨fun _ => ?_, fun _ => hrefused _⟩
    show JobChange _ _ _ (schema.effect (.update .job job.id .succeed) _ .job)
    rw [effect_patch_job]
    exact .succeeded job
  | mark_failed job error now =>
    refine wps_bind ?_
    rw [mark_failed_eq]
    refine wps_execute (fun v => hrefused _) fun _ => ?_
    refine (wp_pure _).mpr ⟨fun _ => ?_, fun _ => hrefused _⟩
    show JobChange _ _ _ (schema.effect (.update .job job.id (failure job error now)) _ .job)
    rw [effect_patch_job]
    exact .failed job error now

end CounselReady
