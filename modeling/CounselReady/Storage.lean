import CounselReady.Runtime

/-! # Object Storage

    `app.storage.base`: content-addressed keys, namespaced per case. A key says
    which case it belongs to, because a UUID's text has no slash in it.
-/

namespace CounselReady

variable {Token : Type}

def content_hash (srv : Server Token) (data : Bytes) : String := srv.sha256 data

def storage_key (case_id digest : String) : String :=
  "cases/" ++ case_id ++ "/documents/" ++ digest

/-- What every key of one case starts with. -/
def case_root (case_id : Uuid) : String := "cases/" ++ case_id.str ++ "/"

/-- The key lies under the prefix of the case. -/
def Uuid.owns_key (case_id : Uuid) (key : String) : Prop :=
  (case_root case_id).toList <+: key.toList

/-! ### The text of a UUID -/

theorem length_hex_digits (k n : Nat) : (hex_digits k n).length = k := by
  induction k generalizing n with
  | zero => rfl
  | succ k ih => simp [hex_digits, ih]

theorem digitChar_inj {a b : Nat} (ha : a < 16) (hb : b < 16)
    (h : Nat.digitChar a = Nat.digitChar b) : a = b := by
  have hall : ∀ a < 16, ∀ b < 16, Nat.digitChar a = Nat.digitChar b → a = b := by decide
  exact hall a ha b hb h

/-- A fixed number of digits determines the number they write. -/
theorem hex_digits_inj {k a b : Nat} (ha : a < 16 ^ k) (hb : b < 16 ^ k)
    (h : hex_digits k a = hex_digits k b) : a = b := by
  induction k generalizing a b with
  | zero => omega
  | succ k ih =>
    simp only [hex_digits] at h
    obtain ⟨hhigh, hlow⟩ := List.append_inj' h rfl
    have hdiv : a / 16 = b / 16 := by
      apply ih _ _ hhigh
      · exact Nat.div_lt_of_lt_mul (by rw [Nat.pow_succ] at ha; omega)
      · exact Nat.div_lt_of_lt_mul (by rw [Nat.pow_succ] at hb; omega)
    have hmod : a % 16 = b % 16 := by
      apply digitChar_inj (Nat.mod_lt _ (by decide)) (Nat.mod_lt _ (by decide))
      simpa using hlow
    omega

theorem Uuid.length_str (u : Uuid) : u.str.toList.length = 36 := by
  simp [Uuid.str, length_hex_digits]

theorem Uuid.str_inj {u v : Uuid} (h : u.str = v.str) : u = v := by
  have hu : BitVec.toNat u < 2 ^ 128 := u.isLt
  have hv : BitVec.toNat v < 2 ^ 128 := v.isLt
  have hl := congrArg String.toList h
  simp only [Uuid.str, String.toList_ofList] at hl
  obtain ⟨hl, h5⟩ := List.append_inj hl (by simp [length_hex_digits])
  obtain ⟨hl, h4⟩ := List.append_inj hl (by simp [length_hex_digits])
  obtain ⟨hl, h3⟩ := List.append_inj hl (by simp [length_hex_digits])
  obtain ⟨h1, h2⟩ := List.append_inj hl (by simp [length_hex_digits])
  have e1 := hex_digits_inj (by omega) (by omega) h1
  have e2 := hex_digits_inj (by omega) (by omega) (List.cons.inj h2).2
  have e3 := hex_digits_inj (by omega) (by omega) (List.cons.inj h3).2
  have e4 := hex_digits_inj (by omega) (by omega) (List.cons.inj h4).2
  have e5 := hex_digits_inj (by omega) (by omega) (List.cons.inj h5).2
  exact BitVec.eq_of_toNat_eq (by omega)

/-! ### Whose key it is -/

theorem owns_storage_key (c : Uuid) (digest : String) : c.owns_key (storage_key c.str digest) := by
  refine ⟨("documents/" ++ digest).toList, ?_⟩
  simp [case_root, storage_key]

/-- A key lies under the prefix of one case at most. -/
theorem Uuid.owns_key_unique {c d : Uuid} {key : String} (hc : c.owns_key key)
    (hd : d.owns_key key) : c = d := by
  have hlen : (case_root c).toList.length = (case_root d).toList.length := by
    simp [case_root, Uuid.length_str]
  have hpre := List.IsPrefix.eq_of_length
    (List.prefix_of_prefix_length_le hc hd (Nat.le_of_eq hlen)) hlen
  apply Uuid.str_inj
  apply String.toList_inj.mp
  simpa [case_root] using hpre

/-- A storage key names its case and its digest. -/
theorem storage_key_inj {c d : Uuid} {a b : String} (h : storage_key c.str a = storage_key d.str b) :
    c = d ∧ a = b := by
  have hd : d.owns_key (storage_key c.str a) := by
    rw [h]
    exact owns_storage_key d b
  have hcase : c = d := Uuid.owns_key_unique (owns_storage_key c a) hd
  subst hcase
  refine ⟨rfl, String.toList_inj.mp ?_⟩
  have hl := congrArg String.toList h
  simpa [storage_key] using hl

end CounselReady
