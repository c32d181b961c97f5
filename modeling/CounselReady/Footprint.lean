import CounselReady.App

/-! # What a Route Can Do

    `permits route` bounds the operations of a route, whatever the database and
    the store answer. `respond_confined` shows that every route stays within
    its bound; an invariant is then a matter of single operations.
-/

namespace CounselReady

open Relational Framework Handler Prog

variable {Token : Type}

/-! ### Kinds of route -/

namespace Route

def registers : Route Token → Bool
  | .register _ _ _ => true
  | _ => false

/-- The routes that issue a session. -/
def signs_in : Route Token → Bool
  | .login _ _ => true
  | .mfa_verify _ _ => true
  | .passkey_login_complete _ => true
  | _ => false

def is_login : Route Token → Bool
  | .login _ _ => true
  | _ => false

def refreshes : Route Token → Bool
  | .refresh _ => true
  | _ => false

/-- The routes that revoke sessions. -/
def revokes : Route Token → Bool
  | .refresh _ => true
  | .logout => true
  | .logout_everywhere => true
  | _ => false

/-- The routes that present a second-factor code. -/
def checks_code : Route Token → Bool
  | .mfa_verify _ _ => true
  | .mfa_disable _ _ => true
  | .delete_own_account _ _ _ => true
  | _ => false

def sets_up : Route Token → Bool
  | .mfa_setup => true
  | _ => false

def confirms : Route Token → Bool
  | .mfa_confirm _ => true
  | _ => false

def disables : Route Token → Bool
  | .mfa_disable _ _ => true
  | _ => false

def asks_challenge : Route Token → Bool
  | .register_begin => true
  | .passkey_login_begin _ => true
  | _ => false

def answers_challenge : Route Token → Bool
  | .register_complete _ _ => true
  | .passkey_login_complete _ => true
  | _ => false

def adds_passkey : Route Token → Bool
  | .register_complete _ _ => true
  | _ => false

def uses_passkey : Route Token → Bool
  | .passkey_login_complete _ => true
  | _ => false

def drops_passkey : Route Token → Bool
  | .delete_passkey _ => true
  | _ => false

def deletes_account : Route Token → Bool
  | .delete_own_account _ _ _ => true
  | _ => false

def uploads : Route Token → Bool
  | .upload_document _ _ => true
  | _ => false

def opens_case : Route Token → Bool
  | .create_case _ _ _ => true
  | _ => false

def records_event : Route Token → Bool
  | .create_event _ _ => true
  | _ => false

def records_note : Route Token → Bool
  | .create_note _ _ _ => true
  | _ => false

/-- The nine case, document and timeline routes. -/
def on_cases : Route Token → Bool
  | .create_case _ _ _ => true
  | .list_cases => true
  | .read_case _ => true
  | .list_documents _ => true
  | .read_document _ _ => true
  | .upload_document _ _ => true
  | .list_events _ => true
  | .create_event _ _ => true
  | .create_note _ _ _ => true
  | _ => false

end Route

/-! ### The bound -/

def permits_insert (srv : Server Token) (env : Env) (route : Route Token) :
    (t : Table) → Row t → Prop
  | .user_account, (a : UserAccount) => route.registers = true ∧ a.id = env.uuid 0
  | .user_session, (s : UserSession) =>
      route.signs_in = true ∧ s.id = env.uuid 0 ∧
        s.refresh_digest = hash_refresh_token srv env.refresh_token
  | .used_refresh_token, _ => route.refreshes = true
  | .auth_event, _ => route.signs_in = true
  | .case_, _ => route.opens_case = true
  | .case_audit_event, _ => route.on_cases = true
  | .party, _ => False
  | .document, (d : Document) =>
      route.uploads = true ∧ d.storage_key = storage_key d.case_id.str d.content_hash
  | .document_page, _ => route.uploads = true
  | .passage, _ => False
  | .extracted_fact, _ => False
  | .case_event, (e : CaseEvent) =>
      route.records_event = true ∧ e.passage_id = none ∧ e.asserted_by_party_id = none ∧
        e.about_party_id = none
  | .case_event_note, _ => route.records_note = true
  | .user_mfa, (m : UserMfa) => route.sets_up = true ∧ m.confirmed_at = none
  | .recovery_code, _ => route.sets_up = true
  | .passkey, _ => route.adds_passkey = true
  | .passkey_challenge, _ => route.asks_challenge = true
  | .job, _ => route.uploads = true

def permits_update (srv : Server Token) (env : Env) (route : Route Token) :
    (t : Table) → Patch t → Prop
  | .user_account, _ => route.is_login = true
  | .user_session, .revoke _ => route.revokes = true
  | .user_session, .rotate digest _ =>
      route.refreshes = true ∧ digest = hash_refresh_token srv env.refresh_token
  | .user_mfa, .restart _ _ => route.sets_up = true
  | .user_mfa, .confirm _ _ => route.confirms = true
  | .user_mfa, .consume _ => route.checks_code = true
  | .recovery_code, _ => route.checks_code = true
  | .passkey, _ => route.uses_passkey = true
  | _, _ => False

def permits_delete (route : Route Token) : Table → Prop
  | .user_account => route.deletes_account = true
  | .user_mfa => route.disables = true
  | .recovery_code => (route.sets_up || route.disables) = true
  | .passkey => route.drops_passkey = true
  | .passkey_challenge => route.answers_challenge = true
  | _ => False

def permits_ext (srv : Server Token) (env : Env) (route : Route Token) : Ext → Prop
  | .put key data =>
      route.uploads = true ∧ ∃ case_id : Uuid,
        key = storage_key case_id.str (content_hash srv data)
  | .get _ => False
  | .remove _ => route.deletes_account = true
  | .sign p =>
      (route.signs_in || route.refreshes) = true ∧
        (p.typ = .mfa_challenge → route.is_login = true ∧ p = challenge_claims p.sub env.now)

/-- The operations a request to the route may perform. Every row it inserts is
    keyed by a UUID of its own. -/
def permits (srv : Server Token) (env : Env) (route : Route Token) :
    Op Row Patch Uuid Ext → Prop
  | .select _ _ => True
  | .snapshot => True
  | .write (.insert t row) =>
      (∃ i, row_pk t row = env.uuid i) ∧ permits_insert srv env route t row
  | .write (.update t _ patch) => permits_update srv env route t patch
  | .write (.delete t _) => permits_delete route t
  | .ext e => permits_ext srv env route e

variable {srv : Server Token} {env : Env} {route : Route Token}

/-! ### Authentication -/

theorem confined_load_active_session {session_id : Uuid} :
    Confined (permits srv env route) (load_active_session env session_id) :=
  confined_bind (confined_select_one trivial) (fun _ => every_pure _)

theorem confined_authenticated {credentials : Option Token} :
    Confined (permits srv env route) (authenticated srv env credentials) := by
  refine confined_bind confined_some_or fun token => ?_
  refine confined_bind confined_some_or fun claims => ?_
  refine confined_bind confined_load_active_session fun live => ?_
  refine confined_bind confined_require fun _ => ?_
  refine confined_bind (confined_select_one trivial) fun found => ?_
  refine confined_bind confined_some_or fun account => ?_
  exact confined_bind confined_require fun _ => every_pure _

theorem confined_current_user {credentials : Option Token} :
    Confined (permits srv env route) (current_user srv env credentials) :=
  confined_bind confined_authenticated (fun _ => every_pure _)

theorem confined_issue_access_token {user_id session_id : Uuid} {now : Nat}
    (h : (route.signs_in || route.refreshes) = true) :
    Confined (permits srv env route) (issue_access_token srv user_id session_id now) := by
  refine confined_sign ⟨h, ?_⟩
  intro htyp
  cases htyp

theorem confined_record_auth_event {i : Nat} {email : String} {user_id : Option Uuid}
    {event_type : AuthEventType} (h : route.signs_in = true) :
    Confined (permits srv env route)
      (record_auth_event (env.uuid i) env.now email user_id event_type) :=
  confined_insert ⟨⟨i, rfl⟩, h⟩

theorem confined_complete_login {email : String} {account : UserAccount}
    (h : route.signs_in = true) :
    Confined (permits srv env route) (complete_login srv env email account) := by
  refine confined_bind ?_ fun issued => ?_
  · refine confined_bind (confined_insert ⟨⟨0, rfl⟩, h, rfl, rfl⟩) fun _ => ?_
    exact confined_bind (confined_issue_access_token (by simp [h])) fun _ => every_pure _
  · exact confined_bind (confined_record_auth_event h) fun _ => every_pure _

theorem confined_is_mfa_active {user_id : Uuid} :
    Confined (permits srv env route) (is_mfa_active user_id) :=
  confined_bind (confined_select_one trivial) (fun _ => every_pure _)

theorem confined_rehash {account : UserAccount} {password : String}
    (h : route.is_login = true) :
    Confined (permits srv env route) (rehash srv env account password) := by
  unfold rehash
  split
  · refine confined_bind ?_ fun _ => confined_update h
    unfold hash_password
    split <;> simp
  · simp

theorem confined_refuse_login {email : String} {account : Option UserAccount}
    (h : route.signs_in = true) :
    Confined (permits srv env route)
      (refuse_login env email account : Handler (SignIn Token)) :=
  confined_bind (confined_record_auth_event h) (fun _ => every_raise _)

theorem confined_accept_password {email password : String} {account : UserAccount}
    (h : route.is_login = true) (h' : route.signs_in = true) :
    Confined (permits srv env route) (accept_password srv env email password account) := by
  refine confined_bind (confined_rehash h) fun _ => ?_
  refine confined_bind confined_is_mfa_active fun active => ?_
  cases active with
  | true =>
    exact confined_bind (confined_sign ⟨by simp [h'], fun _ => ⟨h, rfl⟩⟩) fun _ => every_pure _
  | false => exact confined_bind (confined_complete_login h') fun _ => every_pure _

theorem confined_authenticate {email password : String} (h : route.is_login = true)
    (h' : route.signs_in = true) :
    Confined (permits srv env route) (authenticate srv env email password) := by
  refine confined_bind (confined_bind (every_select trivial) fun _ => every_pure _) fun _ => ?_
  refine confined_bind confined_require fun _ => ?_
  refine confined_bind (confined_select_one trivial) fun account => ?_
  cases account with
  | none => exact confined_refuse_login h'
  | some account =>
    dsimp only
    split
    · exact confined_accept_password h h'
    · exact confined_refuse_login h'

theorem confined_revoke_session_by_id {session_id : Uuid} (h : route.revokes = true) :
    Confined (permits srv env route) (revoke_session_by_id env session_id) := by
  refine confined_bind (confined_select_one trivial) fun found => ?_
  cases found with
  | none => exact every_pure _
  | some user_session =>
    dsimp only
    split
    · exact confined_update h
    · simp

theorem confined_refresh_session {refresh_token : String} (h : route.refreshes = true)
    (h' : route.revokes = true) :
    Confined (permits srv env route) (refresh_session srv env refresh_token) := by
  refine confined_bind (confined_select_one trivial) fun replayed => ?_
  cases replayed with
  | some replayed =>
    exact confined_bind (confined_revoke_session_by_id h') fun _ => every_raise _
  | none =>
    refine confined_bind (confined_select_one trivial) fun found => ?_
    refine confined_bind confined_some_or fun user_session => ?_
    refine confined_bind confined_require fun _ => ?_
    refine confined_bind (confined_select_one trivial) fun found => ?_
    refine confined_bind confined_some_or fun account => ?_
    refine confined_bind confined_require fun _ => ?_
    refine confined_bind (confined_insert ⟨⟨0, rfl⟩, h⟩) fun _ => ?_
    refine confined_bind (confined_update ⟨h, rfl⟩) fun _ => ?_
    exact confined_bind (confined_issue_access_token (by simp [h])) fun _ => every_pure _

/-! ### Multi-factor codes -/

section codes
variable {A : Op Row Patch Uuid Ext → Prop}

/-! Checking a code against a secret calls nothing at all. -/

theorem confined_cipher : Confined A (cipher srv) := by
  unfold cipher
  split
  · simp
  · split
    · simp
    · split <;> simp

theorem confined_first_matching {secret cleaned : String} {steps : List Int} :
    Confined A (first_matching srv secret cleaned steps) := by
  induction steps with
  | nil => exact every_pure _
  | cons step steps ih =>
    refine confined_bind ?_ fun same => ?_
    · unfold compare_digest
      split <;> simp
    · cases same with
      | true => exact every_pure _
      | false => exact ih

theorem confined_matching_counter {secret code : String} {timestamp : Nat} :
    Confined A (matching_counter srv secret code timestamp) := by
  unfold matching_counter
  dsimp only
  split
  · exact confined_first_matching
  · simp

theorem confined_decrypt_secret {encrypted : String} :
    Confined A (decrypt_secret srv encrypted) :=
  confined_bind confined_cipher (fun _ => confined_some_or)

theorem confined_begin_enrolment {email : String} :
    Confined A (begin_enrolment srv env email) :=
  confined_bind (confined_bind confined_cipher fun _ => every_pure _) fun _ => every_pure _

end codes

theorem confined_verify_code_for_login {account : UserAccount} {code : String}
    (h : route.checks_code = true) :
    Confined (permits srv env route) (verify_code_for_login srv env account code) := by
  refine confined_bind (confined_select_one trivial) fun found => ?_
  refine confined_bind confined_some_or fun record => ?_
  refine confined_bind confined_require fun _ => ?_
  refine confined_bind confined_decrypt_secret fun secret => ?_
  refine confined_bind confined_matching_counter fun matched => ?_
  cases matched with
  | some step => exact confined_bind confined_require fun _ => confined_update h
  | none =>
    refine confined_bind (confined_select_one trivial) fun found => ?_
    refine confined_bind confined_some_or fun recovery => ?_
    exact confined_bind confined_require fun _ => confined_update h

theorem confined_delete_all {t : Table} {ids : List Uuid}
    (h : permits_delete route t) : Confined (permits srv env route) (delete_all t ids) := by
  induction ids with
  | nil => exact every_pure _
  | cons id ids ih => exact confined_bind (confined_delete h) fun _ => ih

theorem confined_delete_recovery_codes {user_id : Uuid}
    (h : permits_delete route .recovery_code) :
    Confined (permits srv env route) (delete_recovery_codes user_id) :=
  confined_bind (every_select trivial) (fun _ => confined_delete_all h)

theorem confined_start_enrolment {account : UserAccount} (h : route.sets_up = true) :
    Confined (permits srv env route) (start_enrolment srv env account) := by
  have hdel : permits_delete route .recovery_code := by simp [permits_delete, h]
  refine confined_bind (confined_select_one trivial) fun existing => ?_
  refine confined_bind confined_require fun _ => ?_
  refine confined_bind confined_begin_enrolment fun enrolment => ?_
  refine confined_bind ?_ fun _ => ?_
  · unfold store_secret
    cases existing with
    | some record => exact confined_update h
    | none => exact confined_insert ⟨⟨0, rfl⟩, h, rfl⟩
  refine confined_bind (confined_delete_recovery_codes hdel) fun _ => ?_
  refine confined_bind (confined_insert_all ?_) fun _ => every_pure _
  intro row hrow
  obtain ⟨i, hi, rfl⟩ := List.mem_mapIdx.mp hrow
  exact ⟨⟨i + 1, rfl⟩, h⟩

theorem confined_confirm_enrolment {account : UserAccount} {code : String}
    (h : route.confirms = true) :
    Confined (permits srv env route) (confirm_enrolment srv env account code) := by
  refine confined_bind (confined_select_one trivial) fun found => ?_
  refine confined_bind confined_some_or fun record => ?_
  refine confined_bind confined_require fun _ => ?_
  refine confined_bind confined_decrypt_secret fun secret => ?_
  refine confined_bind confined_matching_counter fun matched => ?_
  exact confined_bind confined_some_or fun step => confined_update h

theorem confined_disable_mfa {account : UserAccount} (h : route.disables = true) :
    Confined (permits srv env route) (disable_mfa account) := by
  refine confined_bind (confined_select_one trivial) fun found => ?_
  refine confined_bind confined_some_or fun record => ?_
  refine confined_bind confined_require fun _ => ?_
  refine confined_bind (confined_delete h) fun _ => ?_
  exact confined_delete_recovery_codes (by simp [permits_delete, h])

/-! ### Passkeys -/

theorem confined_store_challenge {user_id : Option Uuid} (h : route.asks_challenge = true) :
    Confined (permits srv env route) (store_challenge srv env user_id) :=
  confined_insert ⟨⟨0, rfl⟩, h⟩

theorem confined_consume_challenge {credential : Credential}
    (h : route.answers_challenge = true) :
    Confined (permits srv env route) (consume_challenge srv env credential) := by
  refine confined_bind confined_some_or fun presented => ?_
  refine confined_bind (confined_select_one trivial) fun found => ?_
  refine confined_bind confined_some_or fun record => ?_
  refine confined_bind confined_require fun _ => ?_
  exact confined_bind (confined_delete h) fun _ => confined_some_or

theorem confined_verified {A : Op Row Patch Uuid Ext → Prop} {α : Type}
    {r : Except WebauthnError α} : Confined A (verified r) := by
  cases r with
  | ok a => exact every_pure _
  | error e => cases e <;> exact every_raise _

/-! ### Deletion and ingest -/

section destroy
variable {A : Op Row Patch Uuid Ext → Prop}

theorem confined_purge_objects {keys : List String} (hremove : ∀ key, A (.ext (.remove key))) :
    Confined A (purge_objects keys) := by
  induction keys with
  | nil => exact every_pure _
  | cons key keys ih =>
    refine confined_bind (every_perform_ext (hremove key)) fun gone => ?_
    refine confined_bind ih fun removed => ?_
    cases gone <;> simp

/-- It reads, deletes the account and removes objects. -/
theorem confined_destroy {account : UserAccount} (hselect : ∀ t p, A (.select t p))
    (hsnapshot : A .snapshot) (hdelete : A (.write (.delete .user_account account.id)))
    (hremove : ∀ key, A (.ext (.remove key))) :
    Confined A (destroy account : Handler (Reply Token)) := by
  have hkeys : Confined A (collect_storage_keys account.id) :=
    confined_bind (every_snapshot hsnapshot) fun _ => every_pure _
  refine confined_bind hkeys fun keys => confined_bind ?_ fun summary => ?_
  · refine confined_bind hkeys fun _ => confined_bind (every_select (hselect _ _)) fun _ => ?_
    exact confined_bind (confined_delete hdelete) fun _ => every_pure _
  · exact confined_bind (confined_purge_objects hremove) fun _ => every_pure _

end destroy

theorem confined_reauthenticate {account : UserAccount} {password : String}
    {mfa_code : Option String} (h : route.checks_code = true) :
    Confined (permits srv env route) (reauthenticate srv env account password mfa_code) := by
  refine confined_bind confined_require fun _ => ?_
  refine confined_bind confined_is_mfa_active fun active => ?_
  cases active with
  | false => exact every_pure _
  | true =>
    refine confined_bind confined_some_or fun code => ?_
    exact (every_rethrow _ _).mpr (confined_verify_code_for_login h)

theorem confined_read_chunks {max_bytes : Nat} {buffer : Bytes} {chunks : List Bytes} :
    Confined (permits srv env route) (read_chunks max_bytes buffer chunks) := by
  induction chunks generalizing buffer with
  | nil =>
    unfold read_chunks
    split <;> simp
  | cons chunk chunks ih =>
    unfold read_chunks
    dsimp only
    split
    · simp
    · exact ih

theorem confined_read_bounded {chunks : List Bytes} {max_bytes : Nat} {declared : Option Nat} :
    Confined (permits srv env route) (read_bounded chunks max_bytes declared) := by
  unfold read_bounded
  split
  · simp
  · exact confined_read_chunks

theorem confined_record_document {document : Document} {extraction : ExtractionResult}
    (h : route.uploads = true) (hid : document.id = env.uuid 0)
    (hkey : document.storage_key = storage_key document.case_id.str document.content_hash) :
    Confined (permits srv env route) (record_document env document extraction) := by
  refine confined_bind (confined_insert ⟨⟨0, hid⟩, h, hkey⟩) fun _ => ?_
  refine confined_bind ?_ fun _ => ?_
  · unfold queue_ocr
    split
    · refine confined_bind ?_ fun _ => every_pure _
      exact confined_bind (confined_insert ⟨⟨1, rfl⟩, h⟩) fun _ => every_pure _
    · simp
  · refine confined_insert_all ?_
    intro row hrow
    obtain ⟨i, hi, rfl⟩ := List.mem_mapIdx.mp hrow
    exact ⟨⟨3 + i, rfl⟩, h⟩

theorem confined_ingest_document {request : IngestRequest} (h : route.uploads = true) :
    Confined (permits srv env route) (ingest_document srv env request) := by
  refine confined_bind (confined_select_one trivial) fun existing => ?_
  cases existing with
  | some existing => exact every_raise _
  | none =>
    refine confined_bind (confined_put ⟨h, request.case_id, rfl⟩) fun _ => ?_
    refine confined_bind confined_ok_or fun extraction => ?_
    exact confined_bind (confined_record_document h rfl rfl) fun _ => every_pure _

/-! ### Case routes -/

theorem confined_owned_case {account : UserAccount} {case_id : Uuid} :
    Confined (permits srv env route) (owned_case account case_id) :=
  confined_bind (confined_select_one trivial) (fun _ => confined_some_or)

theorem confined_audit {i : Nat} {account : UserAccount} {case_id : Option Uuid}
    {action : CaseAction} {detail : Option (List (String × Nat))} (h : route.on_cases = true) :
    Confined (permits srv env route) (audit (env.uuid i) account case_id action detail) :=
  confined_insert ⟨⟨i, rfl⟩, h⟩

theorem confined_load_related {events : List CaseEvent} :
    Confined (permits srv env route) (load_related events) := by
  refine confined_bind (every_select trivial) fun _ => ?_
  refine confined_bind (every_select trivial) fun _ => ?_
  refine confined_bind (every_select trivial) fun _ => ?_
  exact confined_bind (every_select trivial) fun _ => every_pure _

/-! ### Every route -/

/-- **A request stays within the bound of its route.** One case per route. -/
theorem respond_confined (srv : Server Token) (env : Env) (req : Request Token) :
    Confined (permits srv env req.route) (respond srv env req) := by
  obtain ⟨credentials, route⟩ := req
  cases route with
  | register email password display_name =>
    refine confined_bind confined_some_or fun email => ?_
    refine confined_bind confined_require fun _ => ?_
    refine confined_bind confined_require fun _ => ?_
    refine confined_bind ((every_rethrow _ _).mpr ?_) fun _ => every_pure _
    refine confined_bind ?_ fun _ => ?_
    · unfold hash_password
      split <;> simp
    · exact confined_bind ((every_rethrow _ _).mpr (confined_insert ⟨⟨0, rfl⟩, rfl, rfl⟩))
        fun _ => every_pure _
  | login email password =>
    refine confined_bind confined_some_or fun email => ?_
    refine confined_bind confined_require fun _ => ?_
    exact confined_bind ((every_rethrow _ _).mpr (confined_authenticate rfl rfl))
      fun _ => every_pure _
  | refresh refresh_token =>
    refine confined_bind confined_require fun _ => ?_
    exact confined_bind ((every_rethrow _ _).mpr (confined_refresh_session rfl rfl))
      fun _ => every_pure _
  | logout =>
    refine confined_bind confined_authenticated fun auth => ?_
    exact confined_bind (confined_revoke_session_by_id rfl) fun _ => every_pure _
  | me => exact confined_bind confined_current_user fun _ => every_pure _
  | logout_everywhere =>
    refine confined_bind confined_current_user fun account => ?_
    refine confined_bind (every_select trivial) fun sessions => ?_
    refine confined_bind ?_ fun _ => every_pure _
    -- one update for each session that is open
    induction sessions with
    | nil => exact every_pure _
    | cons s rest ih => exact confined_bind (confined_update rfl) fun _ => ih
  | delete_own_account password mfa_code acknowledge =>
    refine confined_bind confined_current_user fun account => ?_
    refine confined_bind confined_require fun _ => ?_
    refine confined_bind confined_require fun _ => ?_
    refine confined_bind confined_require fun _ => ?_
    exact confined_bind (confined_reauthenticate rfl) fun _ =>
      confined_destroy (fun _ _ => trivial) trivial rfl fun _ => rfl
  | mfa_status =>
    refine confined_bind confined_current_user fun account => ?_
    refine confined_bind confined_is_mfa_active fun active => ?_
    cases active with
    | true =>
      exact confined_bind (confined_bind (every_select trivial) fun _ => every_pure _) fun _ => every_pure _
    | false => exact every_pure _
  | mfa_setup =>
    refine confined_bind confined_current_user fun account => ?_
    exact confined_bind ((every_rethrow _ _).mpr (confined_start_enrolment rfl)) fun _ => every_pure _
  | mfa_confirm code =>
    refine confined_bind confined_current_user fun account => ?_
    refine confined_bind confined_require fun _ => ?_
    exact confined_bind ((every_rethrow _ _).mpr (confined_confirm_enrolment rfl))
      fun _ => every_pure _
  | mfa_verify challenge_token code =>
    refine confined_bind confined_require fun _ => ?_
    refine confined_bind confined_require fun _ => ?_
    refine confined_bind confined_some_or fun user_id => ?_
    refine confined_bind (confined_select_one trivial) fun found => ?_
    refine confined_bind confined_some_or fun account => ?_
    refine confined_bind confined_require fun _ => ?_
    refine confined_bind ((every_rethrow _ _).mpr (confined_verify_code_for_login rfl))
      fun _ => ?_
    exact confined_bind (confined_complete_login rfl) fun _ => every_pure _
  | mfa_disable password code =>
    refine confined_bind confined_current_user fun account => ?_
    refine confined_bind confined_require fun _ => ?_
    refine confined_bind confined_require fun _ => ?_
    refine confined_bind confined_require fun _ => ?_
    refine confined_bind ((every_rethrow _ _).mpr (confined_verify_code_for_login rfl))
      fun _ => ?_
    exact confined_bind ((every_rethrow _ _).mpr (confined_disable_mfa rfl)) fun _ => every_pure _
  | list_passkeys =>
    refine confined_bind confined_current_user fun account => ?_
    exact confined_bind (every_select trivial) fun _ => every_pure _
  | register_begin =>
    refine confined_bind confined_current_user fun account => ?_
    refine confined_bind (every_select trivial) fun _ => ?_
    exact confined_bind (confined_store_challenge rfl) fun _ => every_pure _
  | register_complete credential label =>
    refine confined_bind confined_current_user fun account => ?_
    refine confined_bind confined_require fun _ => ?_
    refine confined_bind (confined_consume_challenge rfl) fun _ => ?_
    refine confined_bind confined_verified fun registered => ?_
    exact confined_bind (confined_insert ⟨⟨0, rfl⟩, rfl⟩) fun _ => every_pure _
  | passkey_login_begin email =>
    refine confined_bind confined_some_or fun email => ?_
    refine confined_bind (confined_select_one trivial) fun account => ?_
    refine confined_bind ?_ fun _ => ?_
    · unfold allowed_passkeys
      -- an unknown or an inactive account has no passkeys looked up
      split
      · simp
      · exact every_select trivial
    · exact confined_bind (confined_store_challenge rfl) fun _ => every_pure _
  | passkey_login_complete credential =>
    refine confined_bind (confined_consume_challenge rfl) fun challenge => ?_
    refine confined_bind confined_some_or fun credential_id => ?_
    refine confined_bind (confined_select_one trivial) fun found => ?_
    refine confined_bind confined_some_or fun passkey => ?_
    refine confined_bind (confined_select_one trivial) fun found => ?_
    refine confined_bind confined_some_or fun account => ?_
    refine confined_bind confined_require fun _ => ?_
    refine confined_bind confined_verified fun new_count => ?_
    refine confined_bind (confined_update rfl) fun _ => ?_
    exact confined_bind (confined_complete_login rfl) fun _ => every_pure _
  | delete_passkey passkey_id =>
    refine confined_bind confined_current_user fun account => ?_
    refine confined_bind (confined_select_one trivial) fun found => ?_
    refine confined_bind confined_some_or fun passkey => ?_
    exact confined_bind (confined_delete rfl) fun _ => every_pure _
  | create_case title court case_number =>
    refine confined_bind confined_current_user fun account => ?_
    refine confined_bind confined_require fun _ => ?_
    refine confined_bind confined_require fun _ => ?_
    refine confined_bind confined_require fun _ => ?_
    refine confined_bind (confined_insert ⟨⟨0, rfl⟩, rfl⟩) fun _ => ?_
    exact confined_bind (confined_audit rfl) fun _ => every_pure _
  | list_cases =>
    refine confined_bind confined_current_user fun account => ?_
    refine confined_bind (every_select trivial) fun rows => ?_
    exact confined_bind (confined_audit rfl) fun _ => every_pure _
  | read_case case_id =>
    refine confined_bind confined_current_user fun account => ?_
    refine confined_bind confined_owned_case fun case => ?_
    exact confined_bind (confined_audit rfl) fun _ => every_pure _
  | list_documents case_id =>
    refine confined_bind confined_current_user fun account => ?_
    refine confined_bind confined_owned_case fun case => ?_
    refine confined_bind (every_select trivial) fun rows => ?_
    exact confined_bind (confined_audit rfl) fun _ => every_pure _
  | read_document case_id document_id =>
    refine confined_bind confined_current_user fun account => ?_
    refine confined_bind confined_owned_case fun case => ?_
    refine confined_bind (confined_bind (confined_select_one trivial)
      fun _ => confined_some_or) fun document => ?_
    refine confined_bind (every_select trivial) fun rows => ?_
    refine confined_bind (every_select trivial) fun passages => ?_
    exact confined_bind (confined_audit rfl) fun _ => every_pure _
  | upload_document case_id upload =>
    refine confined_bind confined_current_user fun account => ?_
    refine confined_bind confined_owned_case fun case => ?_
    refine confined_bind ((every_rethrow _ _).mpr confined_read_bounded) fun data => ?_
    refine confined_bind confined_some_or fun ingest_source => ?_
    refine confined_bind ((every_rethrow _ _).mpr (confined_ingest_document rfl))
      fun document => ?_
    exact confined_bind (confined_audit rfl) fun _ => every_pure _
  | list_events case_id =>
    refine confined_bind confined_current_user fun account => ?_
    refine confined_bind confined_owned_case fun case => ?_
    refine confined_bind (every_select trivial) fun rows => ?_
    refine confined_bind confined_load_related fun loaded => ?_
    exact confined_bind (confined_audit rfl) fun _ => every_pure _
  | create_event case_id body =>
    refine confined_bind confined_current_user fun account => ?_
    refine confined_bind confined_owned_case fun case => ?_
    refine confined_bind confined_require fun _ => ?_
    refine confined_bind (confined_insert ⟨⟨0, rfl⟩, rfl, rfl, rfl, rfl⟩) fun _ => ?_
    exact confined_bind (confined_audit rfl) fun _ => every_pure _
  | create_note case_id event_id body =>
    refine confined_bind confined_current_user fun account => ?_
    refine confined_bind confined_owned_case fun case => ?_
    refine confined_bind (confined_bind (confined_select_one trivial)
      fun _ => confined_some_or) fun event => ?_
    refine confined_bind confined_require fun _ => ?_
    refine confined_bind (confined_insert ⟨⟨0, rfl⟩, rfl⟩) fun _ => ?_
    exact confined_bind (confined_audit rfl) fun _ => every_pure _

/-! ### Steps of a run -/

def permits_ocr : Op Row Patch Uuid Ext → Prop
  | .select _ _ => True
  | .write (.update .document _ _) => True
  | .write (.update .document_page _ _) => True
  | .ext (.get _) => True
  | _ => False

theorem fill_pages_confined (pages : List OcrPage) (stored : List DocumentPage) :
    Confined permits_ocr (fill_pages pages stored) := by
  induction stored with
  | nil => exact every_pure _
  | cons page rest ih =>
    unfold fill_pages
    split
    · exact ih
    · split
      · exact ih
      · exact confined_bind (confined_update trivial) fun _ =>
          confined_bind ih fun _ => every_pure _

theorem run_ocr_confined (document_id : Uuid) (engine : OcrEngine) :
    Confined permits_ocr (run_ocr_for_document document_id engine) := by
  refine confined_bind (confined_select_one trivial) fun found => ?_
  cases found with
  | none => exact every_raise _
  | some document =>
    refine confined_bind (confined_update trivial) fun _ => ?_
    refine confined_bind (every_perform_ext trivial) fun got => ?_
    match got with
    | .error e => exact every_raise _
    | .ok data =>
      dsimp only
      split
      · exact every_raise _
      · exact every_raise _
      · refine confined_bind (every_select trivial) fun stored => ?_
        refine confined_bind (fill_pages_confined _ _) fun filled => ?_
        exact confined_bind (confined_update trivial) fun _ => every_pure _

/-- The bound on a step of a run. -/
def Step.permits (srv : Server Token) : Step Token → Op Row Patch Uuid Ext → Prop
  | .request env req => CounselReady.permits srv env req.route
  | .ocr _ _ _ => permits_ocr

/-- **Step rule.** What every permitted operation preserves, a step preserves,
    provided it survives a rollback. -/
theorem Step.run_confined {s : Step Token} {w : Committed} {I : Session → Prop}
    {P : Committed → Prop}
    (hI : ∀ o st, s.permits srv o → I st → I (perform schema run_ext o st).2)
    (h0 : I (w.begin s.env))
    (hcommit : ∀ st, I st → P ⟨st.db, st.ext⟩) (hrollback : ∀ st, I st → P ⟨w.db, st.ext⟩) :
    P (s.run srv w) := by
  cases s with
  | request env req =>
    exact get_session_confined (respond_confined srv env req) hI h0 hcommit hrollback
  | ocr env document_id engine =>
    exact get_session_confined (run_ocr_confined document_id engine) hI h0 hcommit hrollback

/-- The step rule for a property of the rows alone. -/
theorem Step.run_db_invariant {s : Step Token} {w : Committed} {J : Database → Prop}
    (hJ : ∀ wr db, s.permits srv (.write wr) → schema.check db wr = none → J db →
      J (schema.effect (schema.resolve db wr) db))
    (h0 : J w.db) : J (s.run srv w).db := by
  let P : Committed → Prop := fun w => J w.db
  suffices hI : ∀ o (st : Session), s.permits srv o → J st.db →
      J (perform schema run_ext o st).2.db by
    have hP : P (s.run srv w) := Step.run_confined hI h0 (fun _ hst => hst) (fun _ _ => h0)
    exact hP
  intro o st ho hst
  rcases perform_db schema run_ext o st with heq | ⟨wr, rfl, hc, heq⟩
  · rw [heq]
    exact hst
  · rw [heq]
    exact hJ wr st.db ho hc hst

/-- No foreign key points at these. -/
theorem leaf_of_permitted {route : Route Token} {t : Table} (h : permits_delete route t) :
    t = .user_account ∨ ∀ t', ∀ k ∈ row_keys t', k.target ≠ t := by
  cases t <;> try exact absurd h id
  case user_account => exact .inl rfl
  all_goals
    right
    intro t' k hk
    cases t' <;> simp only [row_keys, List.not_mem_nil, List.mem_cons, or_false] at hk
    all_goals first
      | (subst hk; decide)
      | (rcases hk with rfl | rfl <;> decide)
      | (rcases hk with rfl | rfl | rfl | rfl | rfl <;> decide)

/-- No foreign key points at a challenge. -/
theorem challenge_leaf : ∀ t', ∀ k ∈ schema.keys t', k.target ≠ .passkey_challenge :=
  (leaf_of_permitted (show permits_delete (.passkey_login_complete ⟨none, none, ""⟩ : Route Unit)
    .passkey_challenge from rfl)).resolve_left (by decide)

/-- One operation keeps the constraints. -/
theorem perform_sound {s : Session} (o : Op Row Patch Uuid Ext)
    (hs : schema.Consistent s.db ∧ schema.Fitting s.db) :
    schema.Consistent (perform schema run_ext o s).2.db ∧
      schema.Fitting (perform schema run_ext o s).2.db := by
  obtain ⟨hc, hf⟩ := hs
  rcases perform_db schema run_ext o s with heq | ⟨wr, _, hchk, heq⟩
  · rw [heq]
    exact ⟨hc, hf⟩
  · rw [heq]
    exact ⟨Schema.consistent_admitted schema_regular hc hchk,
      hf.admitted schema_clearable hc hchk⟩

theorem perform_consistent {s : Session} (o : Op Row Patch Uuid Ext)
    (hc : schema.Consistent s.db) : schema.Consistent (perform schema run_ext o s).2.db := by
  rcases perform_db schema run_ext o s with heq | ⟨wr, _, hchk, heq⟩
  · rw [heq]
    exact hc
  · rw [heq]
    exact Schema.consistent_admitted schema_regular hc hchk

/-- **A handler keeps the constraints**, whatever it does and however it ends. -/
theorem exec_consistent {α : Type} (p : Handler α) {s : Session} (hc : schema.Consistent s.db) :
    schema.Consistent (p.exec (perform schema run_ext) s).2.db :=
  exec_every (I := fun s : Session => schema.Consistent s.db) (fun o _ _ hs => perform_consistent o hs)
    (every_any p) hc

theorem exec_fitting {α : Type} (p : Handler α) {s : Session} (hc : schema.Consistent s.db)
    (hf : schema.Fitting s.db) : schema.Fitting (p.exec (perform schema run_ext) s).2.db := by
  let I : Session → Prop := fun s => schema.Consistent s.db ∧ schema.Fitting s.db
  have hI : I (p.exec (perform schema run_ext) s).2 :=
    exec_every (fun o _ _ hs => perform_sound o hs) (every_any p) ⟨hc, hf⟩
  exact hI.2

/-- **A transaction keeps the constraints**, whatever its handler. -/
theorem get_session_sound {α : Type} (env : Env) (p : Handler α) {w : Committed}
    (hc : schema.Consistent w.db) :
    schema.Consistent (get_session env p w).2.db ∧
      (schema.Fitting w.db → schema.Fitting (get_session env p w).2.db) := by
  let P : Committed → Prop := fun w' => schema.Consistent w'.db
  let P' : Committed → Prop := fun w' => schema.Fitting w'.db
  constructor
  · have hP : P (get_session env p w).2 :=
      get_session_confined (I := fun s => schema.Consistent s.db) (every_any p)
        (fun o _ _ hs => perform_consistent o hs) hc (fun _ hs => hs) (fun _ _ => hc)
    exact hP
  · intro hf
    have hP : P' (get_session env p w).2 :=
      get_session_confined (I := fun s => schema.Consistent s.db ∧ schema.Fitting s.db)
        (every_any p) (fun o _ _ hs => perform_sound o hs) ⟨hc, hf⟩ (fun _ hs => hs.2)
        (fun _ _ => hf)
    exact hP

/-- **Every reachable database is consistent.** -/
theorem Reaches.consistent {C : History Token → Step Token → Prop} {h : History Token}
    (hr : Reaches srv C History.start h) : schema.Consistent h.world.db := by
  induction hr with
  | refl => exact Schema.consistent_empty
  | step s _ _ ih =>
  exact Step.run_db_invariant
    (fun _ _ _ hchk hc => Schema.consistent_admitted schema_regular hc hchk) ih

/-- **Every reachable row meets its constraints.** -/
theorem Reaches.fitting {C : History Token → Step Token → Prop} {h : History Token}
    (hr : Reaches srv C History.start h) : schema.Fitting h.world.db := by
  suffices hboth : schema.Consistent h.world.db ∧ schema.Fitting h.world.db from hboth.2
  induction hr with
  | refl =>
    refine ⟨Schema.consistent_empty, ?_⟩
    intro t r hr
    cases hr
  | step s _ _ ih =>
  exact Step.run_db_invariant (J := fun db => schema.Consistent db ∧ schema.Fitting db)
    (fun _ _ _ hchk hdb => ⟨Schema.consistent_admitted schema_regular hdb.1 hchk,
      hdb.2.admitted schema_clearable hdb.1 hchk⟩) ih

end CounselReady
