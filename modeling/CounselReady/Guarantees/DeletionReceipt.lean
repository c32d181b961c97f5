import CounselReady.Guarantees.CaseCabinet
import Mathlib.Algebra.GroupWithZero.Nat

/-! # The Receipt of a Deletion

    A deletion is answered with three counts. They are those of the drawer that
    the account had in the cabinet: its case files, the documents in them, and,
    short of these by as many as the store has failed on, the objects that went.
-/

namespace CounselReady

open Relational Framework Handler Prog

variable {Token : Type} {srv : Server Token} {env : Env} {db : Database}

/-- How many of the next `n` calls on the store fail. -/
def failing (n : Nat) (outcomes : List StoreOutcome) : Nat :=
  (outcomes.take n).countP fun outcome => decide (outcome ≠ .works)

/-- Each call that fails is one missing from the count, and no other is. -/
theorem wps_purge_objects_counted {keys : List String} {s : Session}
    {Q : Except Exc Nat → Session → Prop}
    (hok : ∀ n s', n + failing keys.length s.ext.outcomes = keys.length → s'.db = s.db →
      Q (.ok n) s') :
    wps (purge_objects keys) Q s := by
  induction keys generalizing s Q with
  | nil => exact (wp_pure _).mpr (hok 0 s rfl rfl)
  | cons key keys ih =>
    refine wps_bind (wp_perform_ext.mpr (wps_bind (ih fun n s' hn hdb => ?_)))
    -- the outcome of this call, and those of the calls after it
    have hfailing : failing (key :: keys).length s.ext.outcomes =
        failing keys.length s.ext.outcomes.tail +
          if s.ext.outcome = .works then 0 else 1 := by
      unfold failing Outside.outcome
      cases s.ext.outcomes with
      | nil => simp
      | cons outcome rest =>
        rw [List.length_cons, List.take_succ_cons, List.countP_cons]
        by_cases hworks : outcome = .works
        · simp [hworks]
        · simp [hworks]
    have hrest : n + failing keys.length s.ext.outcomes.tail = keys.length := hn
    by_cases hworks : s.ext.outcome = .works
    · have hdone : (run_ext (Ext.remove key) s.ext).1 = .ok () := if_pos hworks
      rw [hdone]
      refine (wp_pure _).mpr (hok (n + 1) s' ?_ hdb)
      rw [hfailing, if_pos hworks, List.length_cons]
      omega
    · have hdone : (run_ext (Ext.remove key) s.ext).1 = .error .unavailable := if_neg hworks
      rw [hdone]
      refine (wp_pure _).mpr (hok n s' ?_ hdb)
      rw [hfailing, if_neg hworks, List.length_cons]
      omega

/-! ### The counts of a drawer -/

theorem countP_or_of_disjoint {α : Type} {p q : α → Bool} (xs : List α)
    (h : ∀ x, p x = true → q x = false) :
    xs.countP (fun x => p x || q x) = xs.countP p + xs.countP q := by
  induction xs with
  | nil => rfl
  | cons x xs ih =>
    rw [List.countP_cons, List.countP_cons, List.countP_cons, ih]
    by_cases hp : p x = true
    · rw [hp, h x hp]
      simp only [Bool.true_or, if_true, Bool.false_eq_true, if_false]
      omega
    · rw [Bool.eq_false_of_not_eq_true hp, Bool.false_or]
      simp only [Bool.false_eq_true, if_false]
      omega

/-- Rows that belong to one of several owners are counted owner by owner. -/
theorem countP_any_owner {α β κ : Type} [DecidableEq κ] {owners : List α} {id : α → κ}
    (rows : List β) (column : β → κ) (hdistinct : owners.Pairwise fun a b => id a ≠ id b) :
    rows.countP (fun r => owners.any fun o => id o == column r) =
      (owners.map fun o => rows.countP fun r => id o == column r).sum := by
  induction owners with
  | nil => simp
  | cons o owners ih =>
    obtain ⟨hfirst, hrest⟩ := List.pairwise_cons.mp hdistinct
    rw [List.map_cons, List.sum_cons, ← ih hrest]
    refine countP_or_of_disjoint rows fun r howner => ?_
    -- no later owner has the row as well
    refine List.any_eq_false.mpr fun o' ho' hsame => hfirst o' ho' ?_
    exact (eq_of_beq howner).trans (eq_of_beq hsame).symm

theorem drawer_cases (account : Uuid) :
    (cabinet_of db account).length =
      ((db .case_).filter (fun c : Case => c.owner_id == account)).length := by
  unfold cabinet_of cases_owned
  rw [List.length_map]
  exact order_by_perm.length_eq

theorem drawer_documents (hc : schema.Consistent db) (account : Uuid) :
    ((cabinet_of db account).map fun f => f.documents.length).sum =
      (account_keys db account).length := by
  have hfolder : ∀ c : Case, (folder_of db c).documents.length =
      (db .document).countP (fun d : Document => c.id == d.case_id) := by
    intro c
    unfold folder_of documents_of
    rw [List.length_map, order_by_perm.length_eq, ← List.countP_eq_length_filter]
    exact List.countP_congr fun d _ => by rw [BEq.comm]
  -- no case is in the drawer twice
  have hdistinct : (cases_owned db account).Pairwise (fun a b : Case => a.id ≠ b.id) := by
    have hfiltered : ((db .case_).filter (fun c : Case => c.owner_id == account)).Pairwise
        (fun a b : Case => a.id ≠ b.id) := (hc.distinct .case_).filter _
    exact hfiltered.perm order_by_perm.symm fun h => Ne.symm h
  have hsum := countP_any_owner (db .document) Document.case_id hdistinct
  unfold account_keys cabinet_of
  rw [List.length_map, ← List.countP_eq_length_filter, List.map_map]
  refine (congrArg List.sum (List.map_congr_left fun c _ => hfolder c)).trans
    (hsum.symm.trans (List.countP_congr fun d _ => ?_))
  -- the join goes through all cases, the drawer through those of the account
  unfold document_of
  rw [List.any_eq_true, List.any_eq_true]
  constructor
  · rintro ⟨c, hcase, hid⟩
    obtain ⟨hmem, howner⟩ := mem_cases_owned.mp hcase
    exact ⟨c, hmem, by rw [hid, howner, beq_self_eq_true]; rfl⟩
  · rintro ⟨c, hmem, hboth⟩
    obtain ⟨hid, howner⟩ := Bool.and_eq_true_iff.mp hboth
    exact ⟨c, mem_cases_owned.mpr ⟨hmem, eq_of_beq howner⟩, hid⟩

/-! ### The answer -/

/-- A deletion that goes through counts what it found. -/
theorem serve_receipt {w : Committed} {req : Request Token}
    (hroute : req.route.deletes_account = true) :
    (∃ auth objects, SignedIn srv env req.credentials w.db auth ∧
      objects + failing (account_keys w.db auth.account.id).length env.store_outcomes =
        (account_keys w.db auth.account.id).length ∧
      (serve srv env req w).1 = .success 200 (.deletion
        ((w.db .case_).filter (fun c : Case => c.owner_id == auth.account.id)).length
        (account_keys w.db auth.account.id).length objects)) ∨
    (serve srv env req w).1.refuses := by
  obtain ⟨credentials, route⟩ := req
  cases route <;> try exact absurd hroute Bool.false_ne_true
  case delete_own_account password mfa_code acknowledge =>
    let P : Response Token → Committed → Prop := fun resp _ =>
      (∃ auth objects, SignedIn srv env credentials w.db auth ∧
        objects + failing (account_keys w.db auth.account.id).length env.store_outcomes =
          (account_keys w.db auth.account.id).length ∧
        resp = .success 200 (.deletion
          ((w.db .case_).filter (fun c : Case => c.owner_id == auth.account.id)).length
          (account_keys w.db auth.account.id).length objects)) ∨ resp.refuses
    let route : Route Token := .delete_own_account password mfa_code acknowledge
    have hP : P (serve srv env ⟨credentials, route⟩ w).1
        (serve srv env ⟨credentials, route⟩ w).2 := by
      have herr : ∀ e w', P (answer route (.error e)) w' :=
        fun e _ => .inr (answer_error_refuses _ _)
      refine serve_wps (wps_current_user_bind (fun _ => herr _ w) fun auth hauth => ?_)
      refine wps_require_bind (fun _ => herr _ w) fun _ => ?_
      refine wps_require_bind (fun _ => herr _ w) fun _ => ?_
      refine wps_require_bind (fun _ => herr _ w) fun _ => ?_
      refine wps_bind (wps_reauthenticate (fun _ _ => herr _ w) fun _ db faults hre => ?_)
      -- the check of the code has left the cases and the documents alone
      have hcases : db .case_ = w.db .case_ := hre.other (by decide) (by decide)
      have hkeys : account_keys db auth.account.id = account_keys w.db auth.account.id :=
        account_keys_congr hcases (hre.other (by decide) (by decide)) _
      refine wps_bind (wps_bind (wp_snapshot.mpr ((wp_pure _).mpr ?_)))
      refine wps_bind (wps_delete_account_exact (fun _ _ _ => herr _ w) fun s' _ hext => ?_)
      refine wps_bind (wps_purge_objects_counted fun n s'' hn _ => (wp_pure _).mpr
        ⟨fun _ => .inl ⟨auth, n, hauth, ?_, ?_⟩, fun _ => herr _ w⟩)
      · rw [hext] at hn
        rw [← hkeys]
        exact hn
      · rw [← hkeys, ← hcases]
        rfl
    exact hP

/-- **The receipt.** In every run, one request at a time, a deletion that goes through is
    answered with the number of case files in the account's drawer, the number of documents
    in them, and a number of objects that falls short of that by the calls on the store that
    have failed. -/
theorem deletion_receipt_exact {C : History Token → Step Token → Prop} {h : History Token}
    (hr : Reaches srv C .start h) {req : Request Token}
    (hroute : req.route.deletes_account = true)
    (hsuccess : (serve srv env req h.world).1.succeeded = true) :
    ∃ auth documents objects, SignedIn srv env req.credentials h.world.db auth ∧
      documents = ((cabinet_of h.world.db auth.account.id).map fun f => f.documents.length).sum ∧
      objects + failing documents env.store_outcomes = documents ∧
      (serve srv env req h.world).1 = .success 200
        (.deletion (cabinet_of h.world.db auth.account.id).length documents objects) := by
  rcases @serve_receipt _ srv env h.world req hroute with
    ⟨auth, objects, hauth, hobjects, hanswer⟩ | hrefused
  · rw [← drawer_documents hr.consistent] at hobjects hanswer
    rw [← drawer_cases] at hanswer
    exact ⟨auth, _, objects, hauth, rfl, hobjects, hanswer⟩
  · cases hanswer : (serve srv env req h.world).1 with
    | success status reply =>
      rw [hanswer] at hrefused
      exact hrefused.elim
    | refused e =>
      rw [hanswer] at hsuccess
      cases hsuccess
    | internal_server_error =>
      rw [hanswer] at hsuccess
      cases hsuccess

/-! ### An object that stays -/

/-- The account of `filing` is deleted, while the store is out of reach. -/
def store_down : Env := { Sample.env 9 (108 * second) with store_outcomes := [.fails] }

def leaving : Request Payload :=
  ⟨Sample.bearer (101 * second), .delete_own_account "correct horse" none true⟩

/-- The one document is counted, and its object is not. -/
theorem receipt_falls_short :
    (serve Sample.server store_down leaving (Sample.play filing).world).1 =
        .success 200 (.deletion 1 1 0) ∧
    ∃ auth documents objects, SignedIn Sample.server store_down leaving.credentials
        (Sample.play filing).world.db auth ∧
      documents = ((cabinet_of (Sample.play filing).world.db auth.account.id).map
        fun f => f.documents.length).sum ∧
      objects + failing documents store_down.store_outcomes = documents ∧
      (serve Sample.server store_down leaving (Sample.play filing).world).1 = .success 200
        (.deletion (cabinet_of (Sample.play filing).world.db auth.account.id).length documents
          objects) := by
  have hrun : Sample.honest filing = true ∧
      (serve Sample.server store_down leaving (Sample.play filing).world).1 =
        .success 200 (.deletion 1 1 0) := by
    decide +kernel
  refine ⟨hrun.2, deletion_receipt_exact (Sample.reaches_play hrun.1) rfl ?_⟩
  rw [hrun.2]
  rfl

end CounselReady
