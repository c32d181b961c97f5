import CounselReady.Auth.Tokens

/-! # The Job Queue

    `app.jobs.queue`: a job is enqueued in the caller's transaction, claimed by
    a worker, and marked succeeded or failed. A failure is rescheduled with a
    capped exponential backoff until the attempts are spent.
-/

namespace CounselReady

open Relational Framework Handler

def max_attempts : Nat := 5

def backoff_base : Nat := 30 * second

def backoff_cap : Nat := 30 * 60 * second

def max_backoff_doublings : Nat := 16

/-- The doublings are clamped before the shift. -/
def backoff_for (attempts : Int) : Nat :=
  let doublings := min (max 0 (attempts - 1)).toNat max_backoff_doublings
  let delay := backoff_base * 2 ^ doublings
  if delay < backoff_cap then delay else backoff_cap

/-- `timedelta.max`, in microseconds. -/
def timedelta_max : Nat := 999999999 * (24 * 60 * 60 * second) + (24 * 60 * 60 * second - 1)

/-- `timedelta * int`: an OverflowError past the largest. -/
def timedelta_mul (t k : Nat) : Option Nat := if t * k ≤ timedelta_max then some (t * k) else none

/-- `backoff_for`, with the multiplication that may overflow. -/
def checked_backoff (attempts : Int) : Option Nat := do
  let doublings := min (max 0 (attempts - 1)).toNat max_backoff_doublings
  let delay ← timedelta_mul backoff_base (2 ^ doublings)
  pure (if delay < backoff_cap then delay else backoff_cap)

-- without the clamp
example : timedelta_mul backoff_base (2 ^ 49) = none := by decide

def enqueue (id : Uuid) (kind : JobKind) (payload : String) (now : Nat) : Handler Job := do
  let job : Job := {
    id := id, kind := kind, status := .queued, payload := payload
    attempts := 0, run_after := now, last_error := none }
  insert .job job
  pure job

def enqueue_ocr (id : Uuid) (now : Nat) (document_id : Uuid) : Handler Job :=
  enqueue id .ocr_document document_id.str now

/-- The oldest runnable job, now running. -/
def claim_next (now : Nat) : Handler (Option Job) := do
  -- `FOR UPDATE SKIP LOCKED` bears on workers side by side; this session is alone
  let runnable ← select .job (fun j : Job => j.status == .queued && decide (j.run_after ≤ now))
  match order_by (fun a b : Job => decide (a.run_after ≤ b.run_after)) runnable with
  | [] => pure none
  | job :: _ => do
      update .job job.id .claim
      pure (some (JobPatch.claim.apply job))

def mark_succeeded (job : Job) : Handler Unit :=
  update .job job.id .succeed

/-- `error` is cut to the width of its column. -/
def mark_failed (job : Job) (error : String) (now : Nat) : Handler Unit :=
  let error := String.ofList (error.toList.take 120)
  if max_attempts ≤ job.attempts then update .job job.id (.give_up error)
  else update .job job.id (.requeue error (now + backoff_for job.attempts))

end CounselReady
