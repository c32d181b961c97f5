import CounselReady.Guarantees.Ownership
import CounselReady.Guarantees.DocumentBytes

/-! # The Deletion Cascade

    Deleting an account removes exactly the rows from which a chain of
    `ON DELETE CASCADE` keys leads to it, clears exactly the `SET NULL` columns
    that pointed at a removed row, and leaves every constraint standing. Where
    the rows were written by the routes, no chain of keys leads from a row to two
    accounts, so another account's rows are left as they were.
-/

namespace CounselReady

open Relational Framework

variable {Token : Type} {srv : Server Token} {db : Database}

/-! ### Whose row it is -/

/-- The account a row leads to, by the one path its table has. -/
def OwnedBy (db : Database) (owner : Uuid) : (t : Table) → Row t → Prop
  | .user_account, (r : UserAccount) => r.id = owner
  | .user_session, (r : UserSession) => r.user_id = owner
  | .used_refresh_token, (r : UsedRefreshToken) =>
      ∃ s ∈ db .user_session, UserSession.id s = r.session_id ∧ UserSession.user_id s = owner
  | .auth_event, (r : AuthEvent) => r.user_id = some owner
  | .case_, (r : Case) => r.owner_id = owner
  | .case_audit_event, (r : CaseAuditEvent) => r.actor_user_id = some owner
  | .party, _ => False
  | .document, (r : Document) =>
      ∃ c ∈ db .case_, Case.id c = r.case_id ∧ Case.owner_id c = owner
  | .document_page, (r : DocumentPage) =>
      ∃ d ∈ db .document, Document.id d = r.document_id ∧
        ∃ c ∈ db .case_, Case.id c = Document.case_id d ∧ Case.owner_id c = owner
  | .passage, _ => False
  | .extracted_fact, _ => False
  | .case_event, (r : CaseEvent) => r.recorded_by_user_id = some owner
  | .case_event_note, (r : CaseEventNote) => r.author_user_id = owner
  | .user_mfa, (r : UserMfa) => r.user_id = owner
  | .recovery_code, (r : RecoveryCode) => r.user_id = owner
  | .passkey, (r : Passkey) => r.user_id = owner
  | .passkey_challenge, (r : PasskeyChallenge) => r.user_id = some owner
  | .job, _ => False

/-- No row leads to two accounts. -/
theorem OwnedBy.unique (hc : schema.Consistent db) {a b : Uuid} {t : Table} {r : Row t}
    (ha : OwnedBy db a t r) (hb : OwnedBy db b t r) : a = b := by
  cases t
  case user_account => exact ha.symm.trans hb
  case user_session => exact ha.symm.trans hb
  case used_refresh_token =>
    obtain ⟨s, hs, hid, hown⟩ := ha
    obtain ⟨s', hs', hid', hown'⟩ := hb
    obtain rfl := hc.eq_of_pk hs hs' (hid.trans hid'.symm)
    exact hown.symm.trans hown'
  case auth_event => exact Option.some.inj (ha.symm.trans hb)
  case case_ => exact ha.symm.trans hb
  case case_audit_event => exact Option.some.inj (ha.symm.trans hb)
  case party => exact absurd ha id
  case document =>
    obtain ⟨c, hcm, hid, hown⟩ := ha
    obtain ⟨c', hcm', hid', hown'⟩ := hb
    obtain rfl := hc.eq_of_pk hcm hcm' (hid.trans hid'.symm)
    exact hown.symm.trans hown'
  case document_page =>
    obtain ⟨d, hd, hdid, c, hcm, hid, hown⟩ := ha
    obtain ⟨d', hd', hdid', c', hcm', hid', hown'⟩ := hb
    obtain rfl := hc.eq_of_pk hd hd' (hdid.trans hdid'.symm)
    obtain rfl := hc.eq_of_pk hcm hcm' (hid.trans hid'.symm)
    exact hown.symm.trans hown'
  case passage => exact absurd ha id
  case extracted_fact => exact absurd ha id
  case case_event => exact Option.some.inj (ha.symm.trans hb)
  case case_event_note => exact ha.symm.trans hb
  case user_mfa => exact ha.symm.trans hb
  case recovery_code => exact ha.symm.trans hb
  case passkey => exact ha.symm.trans hb
  case passkey_challenge => exact Option.some.inj (ha.symm.trans hb)
  case job => exact absurd ha id

/-- A row that points at an account's row is the account's too. One case for
    each foreign key of the schema. -/
theorem OwnedBy.back (hc : schema.Consistent db) (hown : OneOwner db) {owner : Uuid}
    {t : Table} {r : Row t} (hr : r ∈ db t) {k : ForeignKey Row Uuid t} (hk : k ∈ row_keys t)
    {j : Uuid} (hj : k.column r = some j)
    (hside : ∀ p ∈ db k.target, row_pk k.target p = j → OwnedBy db owner k.target p) :
    OwnedBy db owner t r := by
  obtain ⟨p, hp, hpk⟩ := hc.target hr hk hj
  have howned := hside p hp hpk
  cases t
  case user_account => cases hk
  case user_session =>
    obtain rfl := List.mem_singleton.mp hk
    obtain rfl := Option.some.inj hj
    exact hpk.symm.trans howned
  case used_refresh_token =>
    obtain rfl := List.mem_singleton.mp hk
    obtain rfl := Option.some.inj hj
    exact ⟨p, hp, hpk, howned⟩
  case auth_event =>
    obtain rfl := List.mem_singleton.mp hk
    have hid : j = owner := hpk.symm.trans howned
    exact hj.trans (congrArg some hid)
  case case_ =>
    obtain rfl := List.mem_singleton.mp hk
    obtain rfl := Option.some.inj hj
    exact hpk.symm.trans howned
  case case_audit_event =>
    rcases List.mem_cons.mp hk with rfl | hk
    · have hid : j = owner := hpk.symm.trans howned
      exact hj.trans (congrArg some hid)
    · obtain rfl := List.mem_singleton.mp hk
      -- by its case: the actor owns the case
      obtain ⟨c, hcm, hid, hactor⟩ := hown.audits r hr j hj
      obtain rfl := hc.eq_of_pk hcm hp (hid.trans hpk.symm)
      exact hactor.trans (congrArg some howned)
  case party =>
    rw [hown.parties] at hr
    cases hr
  case document =>
    obtain rfl := List.mem_singleton.mp hk
    obtain rfl := Option.some.inj hj
    exact ⟨p, hp, hpk, howned⟩
  case document_page =>
    obtain rfl := List.mem_singleton.mp hk
    obtain rfl := Option.some.inj hj
    exact ⟨p, hp, hpk, howned⟩
  case passage =>
    rw [hown.passages] at hr
    cases hr
  case extracted_fact =>
    rw [hown.facts] at hr
    cases hr
  case case_event =>
    have hentry := hown.events r hr
    simp only [row_keys, List.mem_cons, List.not_mem_nil, or_false] at hk
    rcases hk with rfl | rfl | rfl | rfl | rfl
    · -- by its case: the author owns the case
      obtain rfl := Option.some.inj hj
      obtain ⟨c, hcm, hid, hauthor⟩ := hentry.author
      obtain rfl := hc.eq_of_pk hcm hp (hid.trans hpk.symm)
      exact hauthor.trans (congrArg some howned)
    · exact absurd (hj.symm.trans hentry.passage) (by simp)
    · have hid : j = owner := hpk.symm.trans howned
      exact hj.trans (congrArg some hid)
    · exact absurd (hj.symm.trans hentry.asserted_by) (by simp)
    · exact absurd (hj.symm.trans hentry.about) (by simp)
  case case_event_note =>
    rcases List.mem_cons.mp hk with rfl | hk
    · -- by its entry: the author wrote the entry too
      obtain rfl := Option.some.inj hj
      obtain ⟨e, he, hid, hauthor⟩ := hown.notes r hr
      obtain rfl := hc.eq_of_pk he hp (hid.trans hpk.symm)
      exact Option.some.inj (hauthor.symm.trans howned)
    · obtain rfl := List.mem_singleton.mp hk
      obtain rfl := Option.some.inj hj
      exact hpk.symm.trans howned
  case user_mfa =>
    obtain rfl := List.mem_singleton.mp hk
    obtain rfl := Option.some.inj hj
    exact hpk.symm.trans howned
  case recovery_code =>
    obtain rfl := List.mem_singleton.mp hk
    obtain rfl := Option.some.inj hj
    exact hpk.symm.trans howned
  case passkey =>
    obtain rfl := List.mem_singleton.mp hk
    obtain rfl := Option.some.inj hj
    exact hpk.symm.trans howned
  case passkey_challenge =>
    obtain rfl := List.mem_singleton.mp hk
    have hid : j = owner := hpk.symm.trans howned
    exact hj.trans (congrArg some hid)
  case job => cases hk

/-- **Ownership.** A chain of keys, whatever their action, leads to the owner. -/
theorem owned_of_belongs (hc : schema.Consistent db) (hown : OneOwner db) {owner : Uuid}
    {t : Table} {r : Row t} (hr : r ∈ db t)
    (h : schema.BelongsTo db (t, row_pk t r) (.user_account, owner)) : OwnedBy db owner t r := by
  let side : Table × Uuid → Prop := fun x =>
    ∀ r ∈ db x.1, row_pk x.1 r = x.2 → OwnedBy db owner x.1 r
  have hside : side (t, row_pk t r) := by
    refine Schema.BelongsTo.of_sides side h ?_ ?_
    · intro a _ hid
      exact hid
    · rintro ⟨t₁, i₁⟩ ⟨t₂, i₂⟩ ⟨r₁, hr₁, hpk₁, k, hk, _, htarget, hcol⟩ hnext r' hr' hpk'
      obtain rfl : r' = r₁ := hc.eq_of_pk hr' hr₁ (hpk'.trans hpk₁.symm)
      subst htarget
      exact OwnedBy.back hc hown hr' hk hcol hnext
  exact hside r hr rfl

/-! ### What a deletion leaves -/

/-- Another account's row does not go. -/
theorem stays_of_owned (hc : schema.Consistent db) (hown : OneOwner db) {id owner : Uuid}
    (hne : owner ≠ id) {t : Table} {r : Row t} (hr : r ∈ db t) (howned : OwnedBy db owner t r) :
    (t, row_pk t r) ∉ schema.doomed db .user_account id := by
  intro hgone
  have hchain : schema.HangsOff db (t, row_pk t r) (.user_account, id) :=
    (Schema.mem_doomed_iff schema_stratified schema_regular.ordered).mp hgone
  exact hne (OwnedBy.unique hc howned (owned_of_belongs hc hown hr hchain.belongs))

/-- Another account's row keeps its columns. -/
theorem detached_of_owned (hc : schema.Consistent db) (hown : OneOwner db) {id owner : Uuid}
    (hne : owner ≠ id) {t : Table} {r : Row t} (hr : r ∈ db t) (howned : OwnedBy db owner t r) :
    detached (schema.doomed db .user_account id) t r = r := by
  have haccount : (Table.user_account, owner) ∉ schema.doomed db .user_account id := by
    intro hgone
    exact hne (Prod.mk.inj (account_doomed hgone)).2
  cases t
  case auth_event =>
    have huser : kept_ref (schema.doomed db .user_account id) .user_account
        (AuthEvent.user_id r) = AuthEvent.user_id r := by
      refine kept_ref_of_not_mem fun i hi => ?_
      obtain rfl : i = owner := Option.some.inj (hi.symm.trans howned)
      exact haccount
    show ({ r with user_id := _ } : AuthEvent) = r
    rw [huser]
  case case_audit_event =>
    have hactor : kept_ref (schema.doomed db .user_account id) .user_account
        (CaseAuditEvent.actor_user_id r) = CaseAuditEvent.actor_user_id r := by
      refine kept_ref_of_not_mem fun i hi => ?_
      obtain rfl : i = owner := Option.some.inj (hi.symm.trans howned)
      exact haccount
    have hcase : kept_ref (schema.doomed db .user_account id) .case_
        (CaseAuditEvent.case_id r) = CaseAuditEvent.case_id r := by
      refine kept_ref_of_not_mem fun i hi => ?_
      -- the case is the actor's, and stays with the actor
      obtain ⟨c, hcm, rfl, hactor'⟩ := hown.audits r hr i hi
      have hcowner : Case.owner_id c = owner := Option.some.inj (hactor'.symm.trans howned)
      have hstay := stays_of_owned hc hown hne (t := .case_) hcm hcowner
      exact hstay
    show ({ r with actor_user_id := _, case_id := _ } : CaseAuditEvent) = r
    rw [hactor, hcase]
  case case_event =>
    have hentry := hown.events r hr
    have hasserted : kept_ref (schema.doomed db .user_account id) .party
        (CaseEvent.asserted_by_party_id r) = CaseEvent.asserted_by_party_id r := by
      rw [hentry.asserted_by]
      rfl
    have habout : kept_ref (schema.doomed db .user_account id) .party
        (CaseEvent.about_party_id r) = CaseEvent.about_party_id r := by
      rw [hentry.about]
      rfl
    show ({ r with asserted_by_party_id := _, about_party_id := _ } : CaseEvent) = r
    rw [hasserted, habout]
  all_goals rfl

/-- **Another account's rows.** In a state the routes wrote, a deletion leaves
    every row that belongs to another account as it was. -/
theorem other_account_kept (hc : schema.Consistent db) (hown : OneOwner db) {id owner : Uuid}
    (hne : owner ≠ id) {t : Table} {r : Row t} (hr : r ∈ db t)
    (h : schema.BelongsTo db (t, row_pk t r) (.user_account, owner)) :
    r ∈ without_account db id t := by
  have howned := owned_of_belongs hc hown hr h
  refine mem_remove.mpr ⟨r, hr, stays_of_owned hc hown hne hr howned, ?_⟩
  exact detached_of_owned hc hown hne hr howned

/-! ### The cascade -/

/-- **Deletion cascade.** The rows that go are those that hang off the account;
    the rows that stay are unchanged, apart from the references to a row that
    goes; the constraints hold; and in a reachable state another account's rows
    are among those that stay, unchanged. -/
theorem deletion_cascade (hc : schema.Consistent db) (hfits : schema.Fitting db) (id : Uuid) :
    schema.attempt (.delete .user_account id) db = (.ok (), without_account db id) ∧
    (∃ gone, (∀ x, x ∈ gone ↔ schema.HangsOff db x (.user_account, id)) ∧
      ∀ t r, r ∈ without_account db id t ↔
        ∃ r₀ ∈ db t, (t, row_pk t r₀) ∉ gone ∧ r = detached gone t r₀) ∧
    schema.Consistent (without_account db id) ∧ schema.Fitting (without_account db id) ∧
    (∀ (srv : Server Token) (h : History Token), Reaches srv (fun _ _ => True) .start h →
      h.world.db = db → ∀ owner, owner ≠ id → ∀ t, ∀ r ∈ db t,
        schema.BelongsTo db (t, row_pk t r) (.user_account, owner) →
          r ∈ without_account db id t) := by
  refine ⟨rfl, ⟨schema.doomed db .user_account id, ?_, ?_⟩, ?_, ?_, ?_⟩
  · intro x
    exact Schema.mem_doomed_iff schema_stratified schema_regular.ordered
  · intro t r
    constructor
    · intro hr
      obtain ⟨r₀, hr₀, hstay, hsame⟩ := mem_remove.mp hr
      exact ⟨r₀, hr₀, hstay, hsame.symm⟩
    · rintro ⟨r₀, hr₀, hstay, rfl⟩
      exact mem_remove.mpr ⟨r₀, hr₀, hstay, rfl⟩
  · exact Schema.consistent_delete schema_regular hc .user_account id
  · exact hfits.delete schema_clearable .user_account id
  · -- what a run has made belongs to one account
    rintro srv h hr rfl owner hne t r hrow hbelongs
    exact other_account_kept hc hr.oneOwner hne hrow hbelongs

/-- The account of the run `filed` goes with the page it uploaded, two keys away. -/
theorem filed_account_cascades :
    filed.world.db .document_page ≠ [] ∧
      without_account filed.world.db 4096#128 .document_page = [] ∧
      schema.Consistent (without_account filed.world.db 4096#128) ∧
      schema.Fitting (without_account filed.world.db 4096#128) := by
  have hcascade := @deletion_cascade Payload filed.world.db reaches_filed.consistent
    reaches_filed.fitting 4096#128
  refine ⟨by decide +kernel, by decide +kernel, hcascade.2.2.1, hcascade.2.2.2.1⟩

end CounselReady
