import CounselReady.Auth.Service

/-! # Account Deletion

    `app.auth.deletion`: the storage keys are collected, the account's row is
    deleted with everything that hangs off it, and the blobs are removed one by
    one.
-/

namespace CounselReady

open Relational Framework Handler

structure DeletionSummary where
  cases : Nat
  documents : Nat
  objects_removed : Nat
  deriving DecidableEq

/-- The document sits in a case of the account. -/
def document_of (db : Database) (user_id : Uuid) (d : Document) : Bool :=
  (db .case_).any (fun c : Case => c.id == d.case_id && c.owner_id == user_id)

/-- `SELECT document.storage_key ... JOIN "case"`. -/
def account_keys (db : Database) (user_id : Uuid) : List String :=
  ((db .document).filter (document_of db user_id)).map Document.storage_key

def collect_storage_keys (user_id : Uuid) : Handler (List String) := do
  let db ← snapshot
  pure (account_keys db user_id)

def delete_account (account : UserAccount) : Handler DeletionSummary := do
  let keys ← collect_storage_keys account.id
  let cases ← select .case_ (fun c : Case => c.owner_id == account.id)
  -- the foreign keys take the rest along
  delete .user_account account.id
  pure ⟨cases.length, keys.length, 0⟩

/-- Each removal is attempted on its own; only the successes are counted. -/
def purge_objects : List String → Handler Nat
  | [] => pure 0
  | key :: keys => do
      let gone : Except StoreError Unit ← perform_ext (Ext.remove key)
      let removed ← purge_objects keys
      match gone with
      | .ok _ => pure (removed + 1)
      | .error _ => pure removed

end CounselReady
