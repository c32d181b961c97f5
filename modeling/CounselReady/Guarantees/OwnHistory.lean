import CounselReady.Guarantees.ToldAgain

/-! # An Account's Own History

    What an account is told of its case files, in a whole run of the server, is a
    function of what it did itself and of what was read off its scans, committed
    answers alone counted. The rest of the run may be anything, one request after
    another: other accounts and their case files, sign-ins and refusals, requests
    that fail half-way or lose their COMMIT.

    The function is `replay`, on one drawer alone; a run of the cabinet restricted
    to the account is a replay (`Run.replayed`).
-/

namespace CounselReady

open Relational Framework Handler Prog

variable {Token : Type} {srv : Server Token}

/-! ### The account's part of a run -/

/-- What happens to one drawer. -/
inductive Own (Token : Type) where
  | asked (id : Uuid) (now : Nat) (route : Route Token)
  | erased
  | read_in (document_id : Uuid) (results : List OcrPage)

/-- The document is in one of the case files. -/
def filed_in (drawer : List Folder) (document_id : Uuid) : Bool :=
  drawer.any fun f => f.documents.any fun paper => paper.1.id == document_id

/-- What a step is to the account whose drawer it is; none when it is not its own. -/
def Glimpse.own (account : Uuid) (drawer : List Folder) : Glimpse Token → Option (Own Token)
  | .answered who id now route _ => if who = account then some (.asked id now route) else none
  | .erased who => if who = account then some .erased else none
  | .read_in document_id results =>
      if filed_in drawer document_id then some (.read_in document_id results) else none
  | .quiet => none

def Glimpse.told (account : Uuid) : Glimpse Token → Option (Reply Token)
  | .answered who _ _ _ reply => if who = account then some reply else none
  | _ => none

/-- What the account did, latest first. -/
def own_history (account : Uuid) (plain : List (Glimpse Token × Cabinet)) : List (Own Token) :=
  plain.filterMap fun p => p.1.own account (p.2 account)

/-- What it was told, latest first. -/
def answers (account : Uuid) (plain : List (Glimpse Token × Cabinet)) : List (Reply Token) :=
  plain.filterMap fun p => p.1.told account

/-! ### One drawer alone -/

section alone
variable {reading : Bytes → Except Exc ExtractionResult} {account : Uuid}

/-- A cabinet with one drawer in it. -/
def alone (account : Uuid) (drawer : List Folder) : Cabinet := Cabinet.empty.put account drawer

def Own.act (reading : Bytes → Except Exc ExtractionResult) (account : Uuid)
    (drawer : List Folder) : Own Token → Option (Reply Token) × List Folder
  | .asked id now route =>
      match (alone account drawer).serve reading id now account route with
      | some (reply, cabinet) => (some reply, cabinet account)
      | none => (none, drawer)
  | .erased => (none, [])
  | .read_in document_id results => (none, drawer.map (Folder.read_in document_id results))

/-- The answers to a history, and the drawer it leaves. -/
def replay (reading : Bytes → Except Exc ExtractionResult) (account : Uuid) :
    List (Own Token) → List (Reply Token) × List Folder
  | [] => ([], [])
  | own :: earlier =>
      let after := own.act reading account (replay reading account earlier).2
      (after.1.toList ++ (replay reading account earlier).1, after.2)

@[simp] theorem alone_self (account : Uuid) (drawer : List Folder) :
    alone account drawer account = drawer := Function.update_self _ _ _

theorem alone_folder (cabinet : Cabinet) (account case_id : Uuid) :
    (alone account (cabinet account)).folder account case_id = cabinet.folder account case_id := by
  unfold Cabinet.folder
  rw [alone_self]

/-- An answer is given from the drawer of who asks, and from nothing else. -/
theorem serve_alone (cabinet : Cabinet) (id : Uuid) (now : Nat) (route : Route Token) :
    ((alone account (cabinet account)).serve reading id now account route).map
        (fun x => (x.1, x.2 account)) =
      (cabinet.serve reading id now account route).map (fun x => (x.1, x.2 account)) := by
  have hput : ∀ (c : Cabinet) folders, c.put account folders account = folders :=
    fun c folders => Function.update_self _ _ _
  -- a case file is looked up, and amended, in the drawer of who asks
  have hamend : ∀ case_id change, (alone account (cabinet account)).amend account case_id change
      account = cabinet.amend account case_id change account := by
    intro case_id change
    unfold Cabinet.amend
    rw [hput, hput, alone_self]
  cases route <;> try rfl
  case create_case title court case_number =>
    simp only [Cabinet.serve, Option.map_some, hput, alone_self]
  case list_cases =>
    simp only [Cabinet.serve, Option.map_some, alone_self]
  case read_case case_id =>
    simp only [Cabinet.serve, alone_folder]
    cases cabinet.folder account case_id <;> simp
  case list_documents case_id =>
    simp only [Cabinet.serve, alone_folder]
    cases cabinet.folder account case_id <;> simp
  case read_document case_id document_id =>
    simp only [Cabinet.serve, alone_folder, Option.bind_eq_bind]
    cases cabinet.folder account case_id with
    | none => rfl
    | some f =>
      simp only [Option.bind_some]
      cases f.documents.find? (fun paper => paper.1.id == document_id) <;> simp
  case upload_document case_id upload =>
    simp only [Cabinet.serve, alone_folder, Option.bind_eq_bind]
    cases cabinet.folder account case_id with
    | none => rfl
    | some f =>
      simp only [Option.bind_some]
      cases (reading upload.data).toOption <;> simp [hamend]
  case list_events case_id =>
    simp only [Cabinet.serve, alone_folder]
    cases cabinet.folder account case_id <;> simp
  case create_event case_id body =>
    simp only [Cabinet.serve, alone_folder, Option.bind_eq_bind]
    cases cabinet.folder account case_id <;> simp [hamend]
  case create_note case_id event_id body =>
    simp only [Cabinet.serve, alone_folder, Option.bind_eq_bind]
    cases cabinet.folder account case_id with
    | none => rfl
    | some f =>
      simp only [Option.bind_some]
      cases f.timeline.find? (fun entry => entry.id == event_id) <;> simp [hamend]

/-- Nothing is read in where nothing is filed. -/
theorem read_in_unfiled {drawer : List Folder} {document_id : Uuid} {results : List OcrPage}
    (h : ¬ filed_in drawer document_id = true) :
    drawer.map (Folder.read_in document_id results) = drawer := by
  refine (List.map_congr_left fun f hf => ?_).trans (List.map_id drawer)
  have hpapers : f.documents.map (fun paper =>
      if paper.1.id = document_id then read_paper results paper else paper) = f.documents := by
    refine (List.map_congr_left fun paper hpaper => ?_).trans (List.map_id f.documents)
    rw [if_neg]
    · rfl
    · intro hid
      refine h (List.any_eq_true.mpr ⟨f, hf, List.any_eq_true.mpr ⟨paper, hpaper, ?_⟩⟩)
      exact beq_iff_eq.mpr hid
  unfold Folder.read_in
  rw [hpapers]
  rfl

/-- Somebody else's answer leaves the drawer alone. -/
theorem serve_other {cabinet cabinet' : Cabinet} {who id : Uuid} {now : Nat} {route : Route Token}
    {reply : Reply Token} (h : cabinet.serve reading id now who route = some (reply, cabinet'))
    (hwho : account ≠ who) : cabinet' account = cabinet account := by
  rcases serve_changes h with rfl | ⟨case, rfl⟩ | ⟨case_id, change, rfl, _, _⟩
  · rfl
  · exact Function.update_of_ne hwho _ _
  · exact amend_other hwho

/-- **Step lemma.** The drawer changes, and answers, as it would alone; a step that is
    not the account's does neither. -/
theorem does_alone {cabinet cabinet' : Cabinet} {m : Glimpse Token}
    (h : Cabinet.Does reading cabinet m cabinet') :
    (m.own account (cabinet account)).elim (none, cabinet account)
      (Own.act reading account (cabinet account)) = (m.told account, cabinet' account) := by
  cases h with
  | @answered _ who id now route reply serve =>
    by_cases hwho : who = account
    · subst hwho
      simp only [Glimpse.own, Glimpse.told, if_true, Option.elim_some]
      -- the drawer alone gives the same answer, and becomes the same drawer
      have halone := @serve_alone _ reading who cabinet id now route
      rw [serve, Option.map_some] at halone
      obtain ⟨x, hx, hsame⟩ := Option.map_eq_some_iff.mp halone
      obtain ⟨hreply, hdrawer⟩ := Prod.mk.inj hsame
      simp only [Own.act, hx, hreply, hdrawer]
    · simp only [Glimpse.own, Glimpse.told, if_neg hwho, Option.elim_none]
      rw [serve_other serve (Ne.symm hwho)]
  | erased who =>
    by_cases hwho : who = account
    · subst hwho
      simp only [Glimpse.own, Glimpse.told, if_true, Option.elim_some, Own.act]
      rw [Cabinet.put, Function.update_self]
    · simp only [Glimpse.own, Glimpse.told, if_neg hwho, Option.elim_none]
      rw [Cabinet.put, Function.update_of_ne (Ne.symm hwho)]
  | read_in document_id results =>
    by_cases hfiled : filed_in (cabinet account) document_id = true
    · simp only [Glimpse.own, Glimpse.told, if_pos hfiled, Option.elim_some, Own.act]
    · simp only [Glimpse.own, Glimpse.told, if_neg hfiled, Option.elim_none]
      rw [read_in_unfiled hfiled]
  | quiet => rfl

@[simp] theorem own_history_cons (m : Glimpse Token) (cabinet : Cabinet)
    (past : List (Glimpse Token × Cabinet)) :
    own_history account ((m, cabinet) :: past) =
      (m.own account (cabinet account)).toList ++ own_history account past := by
  unfold own_history
  cases hown : m.own account (cabinet account) <;> simp [hown]

@[simp] theorem answers_cons (m : Glimpse Token) (cabinet : Cabinet)
    (past : List (Glimpse Token × Cabinet)) :
    answers account ((m, cabinet) :: past) = (m.told account).toList ++ answers account past := by
  unfold answers
  cases htold : m.told account <;> simp [htold]

/-- **Run lemma.** The account's part of a run is the replay of its own history. -/
theorem replayed {plain : List (Glimpse Token × Cabinet)} {cabinet : Cabinet}
    (hr : Run (Cabinet.Does reading) unrestricted Cabinet.empty plain cabinet) (account : Uuid) :
    replay reading account (own_history account plain) =
      (answers account plain, cabinet account) := by
  induction hr with
  | start => rfl
  | @next past cabinet cabinet' m hr _ hdoes ih =>
    have hstep := @does_alone _ reading account _ _ _ hdoes
    rw [own_history_cons, answers_cons]
    cases hown : m.own account (cabinet account) with
    | none =>
      rw [hown, Option.elim_none] at hstep
      obtain ⟨htold, hdrawer⟩ := Prod.mk.inj hstep
      rw [← htold, ← hdrawer]
      exact ih
    | some own =>
      rw [hown, Option.elim_some] at hstep
      show replay reading account (own :: own_history account past) = _
      rw [replay, ih]
      dsimp only
      rw [hstep]

end alone

/-! ### Two runs of the server -/

section runs
variable {past : List (Step Token × Committed)} {w : Committed}

/-- What was glimpsed of a run, the cabinet did. -/
theorem OrderlyRun.explained (hr : OrderlyRun srv past w) {plain : List (Glimpse Token × Cabinet)}
    (h : Explains (fun w => cabinet_of w.db) (Glimpsed srv) past plain) :
    Run (Cabinet.Does (reading srv)) unrestricted Cabinet.empty plain (cabinet_of w.db) := by
  induction hr generalizing plain with
  | start =>
    cases h
    exact .start
  | next s hr horderly hw ih =>
    cases h with
    | @cons _ q _ plain hq hrest =>
      subst hw
      obtain ⟨m, cabinet⟩ := q
      obtain ⟨hm, hcabinet⟩ := hq
      dsimp only at hm hcabinet
      subst hcabinet
      exact .next m (ih hrest) trivial (OrderlyRun.does hr horderly hm)

/-- Every run shows something of each step. -/
theorem OrderlyRun.glimpses (hr : OrderlyRun srv past w) :
    ∃ plain, Explains (fun w => cabinet_of w.db) (Glimpsed srv) past plain := by
  induction hr with
  | start => exact ⟨[], .nil⟩
  | @next past w w' s hr horderly hw ih =>
    obtain ⟨plain, hplain⟩ := ih
    obtain ⟨m, hm, _⟩ := OrderlyRun.shown hr horderly
    exact ⟨(m, cabinet_of w.db) :: plain, .cons ⟨hm, rfl⟩ hplain⟩

end runs

/-! ### A second account does not show -/

/-- The second account of `two_accounts` opens its case. -/
def second_opens : Prop :=
  Sample.honest (their_case :: two_accounts) = true ∧
    (serve Sample.server (Sample.env 7 (106 * second)) their_case.req
      (Sample.play two_accounts).world).1.succeeded = true

end CounselReady
