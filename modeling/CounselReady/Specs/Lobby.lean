import CounselReady.Framework.Run
import CounselReady.Schema

/-! # The Lobby

    What signing in and signing out are for, without tokens, digests, rows or
    transactions: a list of the guests who are in, and a visitors' book that is
    written at the door. This is a statement of purpose, not a translation;
    `Guarantees.GuestList` compares the server with it.

    * `Coming.next`: what each coming and going does.
    * `here_iff`: a guest is in iff they came in and have not been seen out since.
-/

namespace CounselReady

open Framework

/-- Who is in: by which session, on whose account, and until when. -/
structure Guest where
  session_id : Uuid
  account : Uuid
  expires_at : Nat
  deriving DecidableEq

/-- A line of the visitors' book. The account is struck out when it is erased. -/
structure BookLine where
  email : String
  account : Option Uuid
  came_at : Nat
  event_type : AuthEventType
  deriving DecidableEq

structure Lobby where
  guests : List Guest
  book : List BookLine

inductive Coming where
  | enters (guest : Guest) (email : String) (now : Nat)
  | leaves (session_id : Uuid)
  | all_leave (account : Uuid)
  | erased (account : Uuid)
  | nobody
  deriving DecidableEq

def Lobby.empty : Lobby := ⟨[], []⟩

def struck_out (account : Uuid) (line : BookLine) : BookLine :=
  if line.account = some account then { line with account := none } else line

def Coming.next : Coming → Lobby → Lobby
  | .enters guest email now, lobby =>
      ⟨lobby.guests ++ [guest],
        lobby.book ++ [⟨email, some guest.account, now, .login_succeeded⟩]⟩
  | .leaves session_id, lobby =>
      { lobby with guests := lobby.guests.filter fun g => decide (g.session_id ≠ session_id) }
  | .all_leave account, lobby =>
      { lobby with guests := lobby.guests.filter fun g => decide (g.account ≠ account) }
  | .erased account, lobby =>
      ⟨lobby.guests.filter fun g => decide (g.account ≠ account),
        lobby.book.map (struck_out account)⟩
  | .nobody, lobby => lobby

/-- One coming or going, as a step relation. -/
def Lobby.Does (lobby : Lobby) (coming : Coming) (lobby' : Lobby) : Prop :=
  lobby' = coming.next lobby

/-! ### Who is in -/

def Coming.lets_in (guest : Guest) : Coming → Prop
  | .enters guest' _ _ => guest = guest'
  | _ => False

/-- The guest is seen out. -/
def Coming.sees_out (guest : Guest) : Coming → Prop
  | .leaves session_id => guest.session_id = session_id
  | .all_leave account => guest.account = account
  | .erased account => guest.account = account
  | _ => False

theorem mem_next {guest : Guest} {lobby : Lobby} {coming : Coming} :
    guest ∈ (coming.next lobby).guests ↔
      coming.lets_in guest ∨ (guest ∈ lobby.guests ∧ ¬ coming.sees_out guest) := by
  cases coming with
  | enters guest' email now =>
    simp [Coming.next, Coming.lets_in, Coming.sees_out, or_comm]
  | leaves session_id => simp [Coming.next, Coming.lets_in, Coming.sees_out]
  | all_leave account => simp [Coming.next, Coming.lets_in, Coming.sees_out]
  | erased account => simp [Coming.next, Coming.lets_in, Coming.sees_out]
  | nobody => simp [Coming.next, Coming.lets_in, Coming.sees_out]

/-- The guest came in, and has not been seen out since. -/
def StillHere (guest : Guest) (past : List (Coming × Lobby)) : Prop :=
  ∃ later p earlier, past = later ++ p :: earlier ∧ p.1.lets_in guest ∧
    ∀ q ∈ later, ¬ q.1.sees_out guest

theorem here_iff {past : List (Coming × Lobby)} {lobby : Lobby}
    (hr : Run Lobby.Does unrestricted Lobby.empty past lobby) {guest : Guest} :
    guest ∈ lobby.guests ↔ StillHere guest past := by
  refine hr.since (P := fun lobby => guest ∈ lobby.guests) List.not_mem_nil ?_
  rintro lobby coming _ rfl
  exact mem_next

end CounselReady
