import CounselReady.Rules
import Mathlib.Data.List.Basic

/-! # The Requests of the Browser

    `send` of the API client, with the two variables of its module that hold the
    tokens, and the server at the other end. A page has many calls of `send` under
    way. Each runs by itself from one `await` to the next; at an `await` it stands
    still, and any of the others may run and set the variables.

    A `fetch` is two messages: the request stands with the call until the server
    takes it up, the response until the call goes on. Both may take any time.
-/

namespace CounselReady

variable {Token : Type}

/-! ### `send` -/

/-- `accessToken` and `refreshToken`. -/
structure HeldTokens (Token : Type) where
  access_token : Option Token
  refresh_token : Option String
  deriving DecidableEq

/-- `setTokens`, given a body. One without the two fields leaves both undefined. -/
def set_tokens : Reply Token → HeldTokens Token
  | .tokens access_token refresh_token => ⟨some access_token, some refresh_token⟩
  | _ => ⟨none, none⟩

def clear_tokens : HeldTokens Token := ⟨none, none⟩

/-- `response.ok`. -/
def Response.ok (response : Response Token) : Bool :=
  decide (200 ≤ response.status) && decide (response.status ≤ 299)

/-- `response.json()`. The body of an error has no tokens. -/
def Response.json : Response Token → Reply Token
  | .success _ reply => reply
  | _ => .empty

/-- Where a call of `send` stands, with the variables it will need. -/
inductive Await (Token : Type) where
  /-- `fetch(path)` has been called, with the header -/
  | sent (retry : Bool) (authorization : Option Token)
  /-- the response is there -/
  | answered (retry : Bool) (response : Response Token)
  /-- `fetch("/auth/refresh")` has been called, with the body -/
  | refreshing (refresh_token : String) (response : Response Token)
  /-- the response to that is there -/
  | refreshed (refreshed response : Response Token)
  /-- `refreshed.json()` has been called -/
  | reading (body : Reply Token)
  | returned (response : Response Token)
  /-- an `await` has thrown, and nothing in `send` catches it -/
  | thrown
  deriving DecidableEq

/-- `send`, up to its first `await`. -/
def send (held : HeldTokens Token) (retry : Bool) : Await Token := .sent retry held.access_token

/-- `refreshToken` as a condition: the empty string is none. -/
def truthy (refresh_token : Option String) : Option String :=
  refresh_token.filter (fun token => token != "")

/-- What `send` does when the answer it awaits is there, up to its next `await`: the
    variables it leaves, and where it stands. -/
def resume (held : HeldTokens Token) : Await Token → Option (HeldTokens Token × Await Token)
  | .answered retry response =>
      match truthy held.refresh_token with
      | some refresh_token =>
          if response.status == 401 && retry then some (held, .refreshing refresh_token response)
          else some (held, .returned response)
      | none => some (held, .returned response)
  | .refreshed refreshed response =>
      if refreshed.ok then some (held, .reading refreshed.json)
      else some (clear_tokens, .returned response)
  | .reading body => some (set_tokens body, send (set_tokens body) false)
  | _ => none

namespace Await

/-- The call has presented a refresh token, and has not taken up the tokens for it yet. -/
def renewing : Await Token → Bool
  | .refreshing _ _ => true
  | .refreshed _ _ => true
  | .reading _ => true
  | _ => false

/-- The call has been answered 401, and has its retry left. -/
def lapsed : Await Token → Bool
  | .answered retry response => response.status == 401 && retry
  | _ => false

def settled : Await Token → Bool
  | .returned _ => true
  | .thrown => true
  | _ => false

end Await

/-! ### The page and the server -/

structure PageCall (Token : Type) where
  route : Route Token
  stands : Await Token

/-- The variables, the calls in the order they were made, and the server. What follows is
    history: the refresh tokens that have been presented, latest first, and the tokens that
    the session has been issued last. -/
structure Browser (Token : Type) where
  held : HeldTokens Token
  calls : List (PageCall Token)
  world : Committed
  presented : List String
  issued : Token × String

inductive BrowserMove (Token : Type) where
  /-- the page calls an endpoint behind the gate -/
  | call (route : Route Token)
  /-- the server takes up what the call has sent -/
  | serve (n : Nat) (env : Env)
  | resume (n : Nat)
  /-- a `fetch` fails, or the body of its response -/
  | reject (n : Nat)
  /-- the server takes up a request of somebody else -/
  | other (env : Env) (req : Request Token)

/-- The tokens of the session, after the answer to a refresh. -/
def renewed (issued : Token × String) : Response Token → Token × String
  | .success _ (.tokens access_token refresh_token) => (access_token, refresh_token)
  | _ => issued

def Browser.next (srv : Server Token) (b : Browser Token) :
    BrowserMove Token → Option (Browser Token)
  | .call route =>
      if route.guarded then some { b with calls := b.calls ++ [⟨route, send b.held true⟩] } else none
  | .serve n env =>
      match b.calls[n]? with
      | some ⟨route, .sent retry authorization⟩ =>
          some { b with
            calls := b.calls.set n
              ⟨route, .answered retry (serve srv env ⟨authorization, route⟩ b.world).1⟩
            world := (serve srv env ⟨authorization, route⟩ b.world).2 }
      | some ⟨route, .refreshing refresh_token response⟩ =>
          some { b with
            calls := b.calls.set n
              ⟨route, .refreshed (serve srv env ⟨none, .refresh refresh_token⟩ b.world).1 response⟩
            world := (serve srv env ⟨none, .refresh refresh_token⟩ b.world).2
            issued := renewed b.issued (serve srv env ⟨none, .refresh refresh_token⟩ b.world).1 }
      | _ => none
  | .resume n =>
      match b.calls[n]? with
      | some c =>
          match resume b.held c.stands with
          | some (held, stands) =>
              some { b with
                held := held
                calls := b.calls.set n ⟨c.route, stands⟩
                presented := match stands with
                  -- the one place where a refresh token leaves the browser
                  | .refreshing refresh_token _ => refresh_token :: b.presented
                  | _ => b.presented }
          | none => none
      | none => none
  | .reject n =>
      match b.calls[n]? with
      | some c =>
          if c.stands.settled then none
          else some { b with calls := b.calls.set n ⟨c.route, .thrown⟩ }
      | none => none
  | .other env req => some { b with world := (serve srv env req b.world).2 }

end CounselReady
