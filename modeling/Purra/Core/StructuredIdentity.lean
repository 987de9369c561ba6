import Purra.Core.JsonDumps
import Purra.Core.JsonEquality
import Purra.Lib.Binary64

/-!
# What the identity of JSON tells

`purra/structured.py`: the identity text of a value is made of counted parts, so that it can be
read back wherever it stands, and the digits of a number are the bits of its binary64.

* `doubleBits_eq_iff` — two binary64 numbers have the same bits if they are the same number.
* `identity_append_inj` — where the identity of a value ends does not depend on what follows.
* `identity_eq_iff` — values within the range that a snapshot accepts have one identity exactly if
  they are equal as JSON.
* `identity_visit` — a snapshot does not change the identity.
-/

namespace Purra

open Binary64 (Magnitude pattern pattern_inj pattern_lt)

/-! ## Numbers -/

/-- A number as a multiple of the least binary64 number. -/
def multiple (mantissa exponent : Int) : Int := mantissa * 2 ^ (exponent + 1074).toNat

variable {m e n f : Int}

theorem natAbs_multiple : (multiple m e).natAbs = m.natAbs * 2 ^ (e + 1074).toNat := by
  rw [multiple, Int.natAbs_mul, Int.natAbs_pow]
  rfl

theorem multiple_neg_iff : multiple m e < 0 ↔ m < 0 := by
  have hpos : (0 : Int) < 2 ^ (e + 1074).toNat := by positivity
  constructor
  · intro h
    by_contra hm
    exact absurd (mul_nonneg (not_lt.1 hm) hpos.le) (not_le.2 h)
  · intro h
    exact mul_neg_of_neg_of_pos h hpos

theorem magnitude_multiple (h : Json.IsBinary64 m e) : Magnitude (multiple m e).natAbs := by
  obtain ⟨hsize, hlow, hhigh⟩ := h
  exact ⟨m.natAbs, (e + 1074).toNat, natAbs_multiple, hsize, by omega⟩

/-- The leading digit of a shifted number. -/
theorem log2_shift {size shift : Nat} (h : size ≠ 0) : (size * 2 ^ shift).log2 = size.log2 + shift := by
  have hpos : 0 < 2 ^ shift := by positivity
  have hne : size * 2 ^ shift ≠ 0 := Nat.mul_ne_zero h hpos.ne'
  rw [Nat.log2_eq_iff hne, Nat.pow_add]
  have hlow : 2 ^ size.log2 ≤ size := Nat.log2_self_le h
  have hhigh : size < 2 ^ (size.log2 + 1) := Nat.lt_log2_self
  refine ⟨Nat.mul_le_mul_right _ hlow, ?_⟩
  rw [show size.log2 + shift + 1 = size.log2 + 1 + shift by omega, Nat.pow_add]
  exact Nat.mul_lt_mul_of_pos_right hhigh hpos

/-- The bits of a number are its sign and those of its magnitude. -/
theorem doubleBits_eq (h : -1074 ≤ e) :
    doubleBits m e = (if m < 0 then 2 ^ 63 else 0) + pattern (multiple m e).natAbs := by
  unfold doubleBits
  by_cases hm : m = 0
  · subst hm
    rw [if_pos rfl, if_neg (lt_irrefl 0), natAbs_multiple]
    simp [pattern]
  · rw [if_neg hm]
    have hsize : m.natAbs ≠ 0 := Int.natAbs_ne_zero.2 hm
    obtain ⟨shift, hshift⟩ : ∃ shift : Nat, e + 1074 = shift := ⟨(e + 1074).toNat, by omega⟩
    have hshift' : (e + 1074).toNat = shift := by omega
    have hlog : (multiple m e).natAbs.log2 = m.natAbs.log2 + shift := by
      rw [natAbs_multiple, hshift', log2_shift hsize]
    have hlead : (multiple m e).natAbs * 2 ^ 52 / 2 ^ (m.natAbs.log2 + shift) =
        m.natAbs * 2 ^ 52 / 2 ^ m.natAbs.log2 := by
      rw [natAbs_multiple, hshift', Nat.mul_right_comm, Nat.pow_add,
        Nat.mul_div_mul_right _ _ (by positivity)]
    dsimp only
    unfold pattern
    rw [hlog, hlead]
    by_cases hnormal : -1022 ≤ (m.natAbs.log2 : Int) + e
    · have hlarge : ¬ m.natAbs.log2 + shift < 52 := by omega
      have htop : ((m.natAbs.log2 : Int) + e + 1023).toNat = m.natAbs.log2 + shift - 51 := by omega
      rw [if_pos hnormal, if_neg hlarge, htop, Nat.add_assoc]
    · have hsmall : m.natAbs.log2 + shift < 52 := by omega
      rw [if_neg hnormal, if_pos hsmall, natAbs_multiple]

theorem doubleBits_lt (h : Json.IsBinary64 m e) : doubleBits m e < 16 ^ 16 := by
  rw [doubleBits_eq h.2.1]
  have := pattern_lt (magnitude_multiple h)
  split <;> omega

/-- Two numbers are the same if they are the same multiple. -/
theorem sameNumber_iff_multiple (he : -1074 ≤ e) (hf : -1074 ≤ f) :
    Json.sameNumber (m, e) (n, f) = true ↔ multiple m e = multiple n f := by
  obtain ⟨low, hlow⟩ : ∃ low, low = min e f := ⟨_, rfl⟩
  have hscale : ∀ x k : Int, low ≤ k → multiple x k = x * 2 ^ (k - low).toNat * 2 ^ (low + 1074).toNat := by
    intro x k hk
    rw [multiple, Int.mul_assoc, ← pow_add]
    congr 2
    omega
  have hpos : (2 : Int) ^ (low + 1074).toNat ≠ 0 := by positivity
  rw [hscale m e (by omega), hscale n f (by omega), Int.mul_eq_mul_right_iff hpos, hlow]
  exact decide_eq_true_iff

/-- **The bits of a number tell the number.** -/
theorem doubleBits_eq_iff (hm : Json.IsBinary64 m e) (hn : Json.IsBinary64 n f) :
    doubleBits m e = doubleBits n f ↔ Json.sameNumber (m, e) (n, f) = true := by
  rw [sameNumber_iff_multiple hm.2.1 hn.2.1, doubleBits_eq hm.2.1, doubleBits_eq hn.2.1]
  have hmlt := pattern_lt (magnitude_multiple hm)
  have hnlt := pattern_lt (magnitude_multiple hn)
  constructor
  · intro h
    have hsign : m < 0 ↔ n < 0 := by
      by_cases hms : m < 0 <;> by_cases hns : n < 0 <;> simp only [hms, hns, if_true, if_false] at h ⊢ <;> omega
    have hpattern : pattern (multiple m e).natAbs = pattern (multiple n f).natAbs := by
      by_cases hns : n < 0
      · rw [if_pos hns, if_pos (hsign.2 hns)] at h
        omega
      · rw [if_neg hns, if_neg fun hms => hns (hsign.1 hms)] at h
        omega
    have habs := pattern_inj (magnitude_multiple hm) (magnitude_multiple hn) hpattern
    have hneg : multiple m e < 0 ↔ multiple n f < 0 := by
      rw [multiple_neg_iff, multiple_neg_iff, hsign]
    omega
  · intro h
    have hsign : m < 0 ↔ n < 0 := by
      rw [← multiple_neg_iff (m := m) (e := e), h, multiple_neg_iff]
    rw [h]
    by_cases hns : n < 0
    · rw [if_pos hns, if_pos (hsign.2 hns)]
    · rw [if_neg hns, if_neg fun hms => hns (hsign.1 hms)]

/-! ## Hexadecimal digits -/

theorem length_hexDigits (digits n : Nat) : (hexDigits digits n).length = digits := by
  induction digits generalizing n with
  | zero => rfl
  | succ digits ih => rw [hexDigits, List.length_append, ih, List.length_singleton]

theorem hexDigits_inj {digits : Nat} {k l : Nat} (hk : k < 16 ^ digits) (hl : l < 16 ^ digits)
    (h : hexDigits digits k = hexDigits digits l) : k = l := by
  induction digits generalizing k l with
  | zero =>
    rw [Nat.pow_zero] at hk hl
    omega
  | succ digits ih =>
    rw [Nat.pow_succ] at hk hl
    obtain ⟨hfront, hlast⟩ := List.append_inj' h rfl
    have hdiv : k / 16 = l / 16 := ih (by omega) (by omega) hfront
    have hmod : k % 16 = l % 16 := by
      rw [← hexValue_digitChar (k % 16) (Nat.mod_lt _ (by decide)),
        ← hexValue_digitChar (l % 16) (Nat.mod_lt _ (by decide)), (List.cons.inj hlast).1]
    omega

theorem identityNumber_eq_iff (hm : Json.IsBinary64 m e) (hn : Json.IsBinary64 n f) :
    identityNumber m e = identityNumber n f ↔ Json.sameNumber (m, e) (n, f) = true := by
  rw [← doubleBits_eq_iff hm hn]
  constructor
  · intro h
    have hletters := congrArg String.toList h
    simp only [identityNumber, String.toList_append, String.toList_ofList] at hletters
    exact hexDigits_inj (doubleBits_lt hm) (doubleBits_lt hn) (List.append_cancel_left hletters)
  · intro h
    rw [identityNumber, identityNumber, h]

/-! ## The parts of an identity -/

/-- How many parts there are, and the parts. -/
def counted (parts : List (List Char)) : List Char :=
  (toString parts.length).toList ++ ':' :: parts.flatten

variable {α : Type} {xs : List α}

theorem readsBack_counted {code : α → List Char} {R : α → α → Prop}
    (hx : ∀ x ∈ xs, ReadsBack code R (fun _ => True) x) :
    ReadsBack (fun l => counted (l.map code)) (List.Forall₂ R) (fun _ => True) xs := by
  intro ys r s _ _ h
  simp only [counted, List.append_assoc, List.cons_append, List.length_map] at h
  obtain ⟨hcount, hrest⟩ :=
    word_inj (not_mem_digits (by decide) _) (not_mem_digits (by decide) _) h
  rw [← List.flatMap_def, ← List.flatMap_def] at hrest
  exact ReadsBack.flatMap_of_length hx (digits_inj hcount) hrest

/-- The bytes of a text. -/
def utf8Bytes (s : String) : List UInt8 := s.toList.flatMap String.utf8EncodeChar

theorem utf8Bytes_inj {s t : String} (h : utf8Bytes s = utf8Bytes t) : s = t := by
  rw [← String.toByteArray_inj, ← String.utf8Encode_toList, ← String.utf8Encode_toList]
  exact congrArg List.toByteArray h

/-- A byte in `data.hex()`. -/
def hexByte (byte : UInt8) : List Char := hexDigits 2 byte.toNat

theorem hexByte_inj {a b : UInt8} (h : hexByte a = hexByte b) : a = b :=
  UInt8.toNat_inj.1 (hexDigits_inj a.toNat_lt b.toNat_lt h)

theorem toList_identityText (s : String) :
    (identityText s).toList = 's' :: counted ((utf8Bytes s).map hexByte) := by
  have hbytes : ((utf8Bytes s).map hexByte).flatten =
      (utf8Bytes s).flatMap fun byte => hexDigits 2 byte.toNat := List.flatMap_def.symm
  rw [counted, List.length_map, hbytes]
  simp [identityText, utf8Bytes, String.toList_append]

theorem readsBack_identityText (s : String) :
    ReadsBack (fun s => (identityText s).toList) (· = ·) (fun _ => True) s := by
  intro t r r' _ _ h
  simp only [toList_identityText, List.cons_append] at h
  have hbyte : ∀ byte ∈ utf8Bytes s, ReadsBack hexByte (· = ·) (fun _ => True) byte := by
    intro byte _
    have hword : ReadsBack hexByte (fun a b => hexByte a = hexByte b) (fun _ => True) byte :=
      readsBack_of_length (fun byte : UInt8 => length_hexDigits 2 byte.toNat) byte
    exact hword.mono (fun _ => hexByte_inj) (fun _ h => h)
  obtain ⟨hall, hrest⟩ := readsBack_counted hbyte (utf8Bytes t) r r' trivial trivial (List.cons.inj h).2
  exact ⟨utf8Bytes_inj (List.forall₂_eq_eq_eq ▸ hall), hrest⟩

/-- The members of an object in the order of their names. -/
def orderedFields (fields : List (String × Json)) : List (String × Json) :=
  fields.insertionSort fun p q => p.1 ≤ q.1

/-- The identity of a key and its value. -/
def identityMember (p : String × Json) : List Char :=
  (identityText p.1).toList ++ (identity p.2).toList

theorem identityItems_eq (items : List Json) : identityItems items = items.map identity := by
  induction items with
  | nil => rfl
  | cons item items ih => rw [identityItems, ih, List.map_cons]

theorem identityFields_eq (fields : List (String × Json)) :
    identityFields fields = fields.map fun p => (p.1, identityText p.1 ++ identity p.2) := by
  induction fields with
  | nil => rfl
  | cons p fields ih => rw [identityFields, ih, List.map_cons]

theorem toList_identity_arr (items : List Json) :
    (identity (.arr items)).toList = 'a' :: counted (items.map fun x => (identity x).toList) := by
  simp [identity, counted, identityItems_eq, String.toList_append, String.toList_join,
    List.flatMap_def, List.map_map, Function.comp_def]

theorem toList_identity_obj (fields : List (String × Json)) :
    (identity (.obj fields)).toList = 'o' :: counted ((orderedFields fields).map identityMember) := by
  have hsort : ((identityFields fields).insertionSort fun p q => p.1 ≤ q.1) =
      (orderedFields fields).map fun p => (p.1, identityText p.1 ++ identity p.2) := by
    rw [identityFields_eq]
    exact (List.map_insertionSort (fun p q : String × Json => p.1 ≤ q.1)
      (fun p q : String × String => p.1 ≤ q.1) _ fields fun _ _ _ _ => Iff.rfl).symm
  have hmember : (orderedFields fields).map identityMember =
      (orderedFields fields).map fun p => (identityText p.1 ++ identity p.2).toList :=
    List.map_congr_left fun p _ => (String.toList_append ..).symm
  rw [identity, hsort, hmember]
  simp [counted, orderedFields, String.toList_append, String.toList_join, List.flatMap_def,
    List.map_map, Function.comp_def]

/-! ## Where an identity ends -/

/-- The letter that an identity begins with. -/
def identityTag : Json → Char
  | .null => 'n'
  | .bool b => if b then 't' else 'f'
  | .int _ | .float _ _ => 'd'
  | .str _ => 's'
  | .arr _ => 'a'
  | .obj _ => 'o'

/-- What stands behind it. -/
def identityBody : Json → List Char
  | .null | .bool _ => []
  | .int n => hexDigits 16 (doubleBits n 0)
  | .float m e => hexDigits 16 (doubleBits m e)
  | .str s => counted ((utf8Bytes s).map hexByte)
  | .arr items => counted (items.map fun x => (identity x).toList)
  | .obj fields => counted ((orderedFields fields).map identityMember)

theorem toList_identity (x : Json) : (identity x).toList = identityTag x :: identityBody x := by
  cases x with
  | null => rfl
  | bool b => cases b <;> rfl
  | int n | float m e =>
    simp [identity, identityNumber, identityTag, identityBody, String.toList_append]
  | str s => exact toList_identityText s
  | arr items => exact toList_identity_arr items
  | obj fields => exact toList_identity_obj fields

/-- An identity can be read back wherever it stands. -/
def IdentityEnds (x : Json) : Prop :=
  ReadsBack (fun x => (identity x).toList) (fun x y => identity x = identity y) (fun _ => True) x

variable {x y : Json}

/-- It can be if what stands behind its first letter can be, among the values that begin alike. -/
theorem identityEnds_of (h : ∀ y, identityTag x = identityTag y → ∀ r s : List Char,
    identityBody x ++ r = identityBody y ++ s → identityBody x = identityBody y ∧ r = s) :
    IdentityEnds x := by
  intro y r s _ _ heq
  simp only [toList_identity, List.cons_append] at heq
  obtain ⟨htag, hrest⟩ := List.cons.inj heq
  obtain ⟨hbody, hrs⟩ := h y htag r s hrest
  refine ⟨String.toList_inj.1 ?_, hrs⟩
  rw [toList_identity, toList_identity, htag, hbody]

theorem counted_eq {code : α → List Char} {ys : List α}
    (h : List.Forall₂ (fun x y => code x = code y) xs ys) :
    counted (xs.map code) = counted (ys.map code) := by
  have hmap : xs.map code = ys.map code := by
    rw [← List.forall₂_eq_eq_eq, List.forall₂_map_left_iff, List.forall₂_map_right_iff]
    exact h
  rw [hmap]

/-- The members of an object can be read back if their values can. -/
theorem readsBack_identityMember {p : String × Json} (h : IdentityEnds p.2) :
    ReadsBack identityMember (fun p q => p.1 = q.1 ∧ identity p.2 = identity q.2) (fun _ => True)
      p := by
  intro q r s _ _ heq
  simp only [identityMember, List.append_assoc] at heq
  obtain ⟨hkey, hrest⟩ := readsBack_identityText p.1 q.1 _ _ trivial trivial heq
  obtain ⟨hvalue, hrs⟩ := h q.2 r s trivial trivial hrest
  exact ⟨⟨hkey, hvalue⟩, hrs⟩

theorem mem_orderedFields {fields : List (String × Json)} {p : String × Json} :
    p ∈ orderedFields fields ↔ p ∈ fields := List.mem_insertionSort _

/-- **Where the identity of a value ends does not depend on what follows.** -/
theorem identityEnds (x : Json) : IdentityEnds x := by
  induction x using Json.inductionOn with
  | null =>
    refine identityEnds_of fun y htag r s h => ?_
    cases y with
    | null => exact ⟨rfl, h⟩
    | bool b => cases b <;> cases htag
    | _ => cases htag
  | bool b =>
    refine identityEnds_of fun y htag r s h => ?_
    cases y with
    | bool b' => exact ⟨rfl, h⟩
    | _ => cases b <;> cases htag
  | int n | float m e =>
    refine identityEnds_of fun y htag r s h => ?_
    cases y with
    | bool b => cases b <;> cases htag
    | int n' | float m' e' =>
      exact List.append_inj h (by simp only [identityBody, length_hexDigits])
    | _ => cases htag
  | str a =>
    refine identityEnds_of fun y htag r s h => ?_
    cases y with
    | bool b => cases b <;> cases htag
    | str b =>
      have hletters : (identityText a).toList ++ r = (identityText b).toList ++ s := by
        rw [toList_identityText, toList_identityText]
        exact congrArg ('s' :: ·) h
      obtain ⟨rfl, hrs⟩ := readsBack_identityText a b r s trivial trivial hletters
      exact ⟨rfl, hrs⟩
    | _ => cases htag
  | arr xs ih =>
    refine identityEnds_of fun y htag r s h => ?_
    cases y with
    | bool b => cases b <;> cases htag
    | arr ys =>
      obtain ⟨hall, hrs⟩ := readsBack_counted ih ys r s trivial trivial h
      exact ⟨counted_eq (hall.imp fun _ _ h => congrArg String.toList h), hrs⟩
    | _ => cases htag
  | obj xs ih =>
    refine identityEnds_of fun y htag r s h => ?_
    cases y with
    | bool b => cases b <;> cases htag
    | obj ys =>
      have hmember := fun p hp => readsBack_identityMember (ih p (mem_orderedFields.1 hp))
      obtain ⟨hall, hrs⟩ := readsBack_counted hmember (orderedFields ys) r s trivial trivial h
      refine ⟨counted_eq (hall.imp fun p q h => ?_), hrs⟩
      rw [identityMember, identityMember, h.1, h.2]
    | _ => cases htag

/-! ## Equal identities -/

theorem identity_arr_eq_iff {xs ys : List Json} :
    identity (.arr xs) = identity (.arr ys) ↔
      List.Forall₂ (fun x y => identity x = identity y) xs ys := by
  rw [← String.toList_inj, toList_identity_arr, toList_identity_arr]
  constructor
  · intro h
    exact (readsBack_counted (fun x _ => identityEnds x) ys [] [] trivial trivial (by
      simpa using h)).1
  · intro h
    rw [counted_eq (h.imp fun _ _ h => congrArg String.toList h)]

theorem identity_obj_eq_iff {xs ys : List (String × Json)} :
    identity (.obj xs) = identity (.obj ys) ↔
      List.Forall₂ (fun p q => p.1 = q.1 ∧ identity p.2 = identity q.2) (orderedFields xs)
        (orderedFields ys) := by
  rw [← String.toList_inj, toList_identity_obj, toList_identity_obj]
  constructor
  · intro h
    exact (readsBack_counted (fun p _ => readsBack_identityMember (identityEnds p.2))
      (orderedFields ys) [] [] trivial trivial (by simpa using h)).1
  · intro h
    rw [counted_eq (h.imp fun p q h => by rw [identityMember, identityMember, h.1, h.2])]

theorem map_fst_orderedFields (fields : List (String × Json)) :
    (orderedFields fields).map Prod.fst = (fields.map Prod.fst).insertionSort (· ≤ ·) :=
  List.map_insertionSort (fun p q : String × Json => p.1 ≤ q.1) (· ≤ ·) _ fields
    fun _ _ _ _ => Iff.rfl

/-- Members in the order of their names agree one by one if every member of one object is found in
the other. -/
theorem forall₂_orderedFields {R : Json → Json → Prop} {xs ys : List (String × Json)}
    (hxs : (xs.map Prod.fst).Nodup) (hys : (ys.map Prod.fst).Nodup) :
    List.Forall₂ (fun p q => p.1 = q.1 ∧ R p.2 q.2) (orderedFields xs) (orderedFields ys) ↔
      xs.length = ys.length ∧ ∀ p ∈ xs, ∃ w, Json.field? ys p.1 = some w ∧ R p.2 w := by
  rw [List.forall₂_iff_zip]
  have hlength : ∀ fields, (orderedFields fields).length = fields.length :=
    fun fields => List.length_insertionSort _ fields
  rw [hlength, hlength]
  constructor
  · rintro ⟨hlen, hzip⟩
    refine ⟨hlen, fun p hp => ?_⟩
    obtain ⟨i, hi, hpi⟩ := List.getElem_of_mem (mem_orderedFields.2 hp)
    have hi' : i < (orderedFields ys).length := by
      rw [hlength] at hi ⊢
      omega
    have hmem : (p, (orderedFields ys)[i]) ∈ (orderedFields xs).zip (orderedFields ys) := by
      rw [← hpi, ← List.getElem_zip (h := by rw [List.length_zip]; omega)]
      exact List.getElem_mem _
    obtain ⟨hkey, hvalue⟩ := hzip hmem
    have hfound : (p.1, (orderedFields ys)[i].2) ∈ ys := by
      rw [hkey]
      exact mem_orderedFields.1 (List.getElem_mem hi')
    exact ⟨_, Json.field?_of_mem hys hfound, hvalue⟩
  · rintro ⟨hlen, hfound⟩
    -- the names are the same, and so are they in their order
    have hsub : xs.map Prod.fst ⊆ ys.map Prod.fst := by
      intro key hkey
      obtain ⟨p, hp, rfl⟩ := List.mem_map.1 hkey
      obtain ⟨w, hw, -⟩ := hfound p hp
      exact Json.field?_isSome_iff.1 ⟨w, hw⟩
    have hperm : (xs.map Prod.fst).Perm (ys.map Prod.fst) :=
      (hxs.subperm hsub).perm_of_length_le (by rw [List.length_map, List.length_map, hlen])
    have hkeys : (orderedFields xs).map Prod.fst = (orderedFields ys).map Prod.fst := by
      rw [map_fst_orderedFields, map_fst_orderedFields]
      refine List.Perm.eq_of_pairwise' (List.pairwise_insertionSort _ _)
        (List.pairwise_insertionSort _ _) ?_
      exact ((List.perm_insertionSort _ _).trans hperm).trans (List.perm_insertionSort _ _).symm
    refine ⟨hlen, fun {p q} hmem => ?_⟩
    have hkey : p.1 = q.1 := by
      rw [← List.forall₂_eq_eq_eq, List.forall₂_map_left_iff, List.forall₂_map_right_iff,
        List.forall₂_iff_zip] at hkeys
      exact hkeys.2 hmem
    obtain ⟨hp, hq⟩ := List.of_mem_zip hmem
    obtain ⟨w, hw, hvalue⟩ := hfound p (mem_orderedFields.1 hp)
    have hq' : Json.field? ys p.1 = some q.2 := by
      rw [hkey]
      exact Json.field?_of_mem hys (mem_orderedFields.1 hq)
    rw [hq'] at hw
    cases hw
    exact ⟨hkey, hvalue⟩

/-- A value in the range that a snapshot accepts: its numbers are binary64 numbers, and no object
has two members of one name. -/
def Interoperable : Json → Prop
  | .int n => Json.IsBinary64 n 0
  | .float m e => Json.IsBinary64 m e
  | .obj fields => (fields.map Prod.fst).Nodup
  | _ => True

theorem tag_of_identity (h : identity x = identity y) :
    identityTag x = identityTag y := by
  have hletters := congrArg String.toList h
  rw [toList_identity, toList_identity] at hletters
  exact (List.cons.inj hletters).1

theorem tag_of_equal (h : x.equal y = true) : identityTag x = identityTag y := by
  cases x with
  | bool a => cases y <;> first | cases h | simp_all [Json.equal, identityTag]
  | _ => cases y <;> first | rfl | cases h

/-- Values that begin differently have different identities, and are not equal. -/
theorem identity_eq_iff_of_tag (h : identityTag x = identityTag y →
    (identity x = identity y ↔ x.equal y = true)) : identity x = identity y ↔ x.equal y = true := by
  by_cases htag : identityTag x = identityTag y
  · exact h htag
  · exact ⟨fun h => absurd (tag_of_identity h) htag, fun h => absurd (tag_of_equal h) htag⟩

/-- Sequences related one by one, and another relation that follows between their members. -/
theorem forall₂_imp_of_mem {β : Type} {R S : α → β → Prop} {ys : List β}
    (hall : List.Forall₂ R xs ys) (h : ∀ x ∈ xs, ∀ y ∈ ys, R x y → S x y) :
    List.Forall₂ S xs ys := by
  rw [List.forall₂_iff_zip] at hall ⊢
  refine ⟨hall.1, fun {x y} hmem => ?_⟩
  obtain ⟨hx, hy⟩ := List.of_mem_zip hmem
  exact h x hx y hy (hall.2 hmem)

theorem forall₂_congr_of_mem {R S : α → α → Prop} {ys : List α}
    (h : ∀ x ∈ xs, ∀ y ∈ ys, (R x y ↔ S x y)) : List.Forall₂ R xs ys ↔ List.Forall₂ S xs ys :=
  ⟨fun hall => forall₂_imp_of_mem hall fun x hx y hy => (h x hx y hy).1,
    fun hall => forall₂_imp_of_mem hall fun x hx y hy => (h x hx y hy).2⟩

/-- **Values with one identity are equal as JSON, and equal values have one identity.** -/
theorem identity_eq_iff (hx : x.Everywhere Interoperable)
    (hy : y.Everywhere Interoperable) : identity x = identity y ↔ x.equal y = true := by
  induction x using Json.inductionOn generalizing y with
  | null =>
    refine identity_eq_iff_of_tag fun htag => ?_
    cases y with
    | null => exact ⟨fun _ => rfl, fun _ => rfl⟩
    | bool b => cases b <;> cases htag
    | _ => cases htag
  | bool a =>
    refine identity_eq_iff_of_tag fun htag => ?_
    cases y with
    | bool b => cases a <;> cases b <;> simp [identity, Json.equal]
    | _ => cases a <;> cases htag
  | int m | float m e =>
    refine identity_eq_iff_of_tag fun htag => ?_
    cases y with
    | int n => exact identityNumber_eq_iff hx hy
    | float n f => exact identityNumber_eq_iff hx hy
    | bool b => cases b <;> cases htag
    | _ => cases htag
  | str a =>
    refine identity_eq_iff_of_tag fun htag => ?_
    cases y with
    | str b =>
      rw [Json.equal, decide_eq_true_iff]
      refine ⟨fun h => ?_, fun h => h ▸ rfl⟩
      have hletters : (identityText a).toList ++ [] = (identityText b).toList ++ [] :=
        congrArg (·.toList ++ []) h
      exact (readsBack_identityText a b [] [] trivial trivial hletters).1
    | bool b => cases b <;> cases htag
    | _ => cases htag
  | arr xs ih =>
    refine identity_eq_iff_of_tag fun htag => ?_
    cases y with
    | arr ys =>
      rw [Json.everywhere_arr] at hx hy
      rw [identity_arr_eq_iff, Json.equal_arr]
      exact forall₂_congr_of_mem fun x hmem y hmem' => ih x hmem (hx.2 x hmem) (hy.2 y hmem')
    | bool b => cases b <;> cases htag
    | _ => cases htag
  | obj xs ih =>
    refine identity_eq_iff_of_tag fun htag => ?_
    cases y with
    | obj ys =>
      rw [Json.everywhere_obj] at hx hy
      rw [identity_obj_eq_iff, Json.equal_obj,
        ← forall₂_orderedFields (R := fun v w => v.equal w = true) hx.1 hy.1]
      refine forall₂_congr_of_mem fun p hp q hq => ?_
      have hp' := mem_orderedFields.1 hp
      rw [ih p hp' (hx.2 p hp') (hy.2 q (mem_orderedFields.1 hq))]
    | bool b => cases b <;> cases htag
    | _ => cases htag

/-! ## The identity of a snapshot -/

variable {limits : SnapshotLimits} {budget budget' : SnapshotBudget}

/-- The items that a visit of a sequence leaves, each from a visit of its own. -/
theorem visitItems_forall₂ {level : Nat} {items vs : List Json}
    (h : visitItems limits level items budget = .ok (vs, budget')) :
    List.Forall₂ (fun x v => ∃ b b', visit limits level x b = .ok (v, b')) items vs := by
  induction items generalizing vs budget with
  | nil =>
    cases h
    exact .nil
  | cons item items ih =>
    unfold visitItems at h
    obtain ⟨⟨v, visited⟩, hvisited, h⟩ := bind_eq_ok h
    obtain ⟨⟨rest, spent⟩, hrest, h⟩ := bind_eq_ok h
    cases h
    exact .cons ⟨_, _, hvisited⟩ (ih hrest)

/-- The members that a visit of a mapping leaves, each from a visit of its own. -/
theorem visitFields_forall₂ {level : Nat} {fields vs : List (String × Json)}
    (h : visitFields limits level fields budget = .ok (vs, budget')) :
    List.Forall₂ (fun p q => q.1 = p.1 ∧ ∃ b b', visit limits level p.2 b = .ok (q.2, b')) fields
      vs := by
  induction fields generalizing vs budget with
  | nil =>
    cases h
    exact .nil
  | cons p fields ih =>
    unfold visitFields at h
    obtain ⟨entered, hentered, h⟩ := bind_eq_ok h
    obtain ⟨spent, hspent, h⟩ := bind_eq_ok h
    obtain ⟨⟨v, visited⟩, hvisited, h⟩ := bind_eq_ok h
    obtain ⟨⟨rest, left⟩, hrest, h⟩ := bind_eq_ok h
    cases h
    exact .cons ⟨rfl, _, _, hvisited⟩ (ih hrest)

theorem isBinary64_of_safe {n : Int} (h : ¬ safeInteger < n.natAbs) : Json.IsBinary64 n 0 := by
  unfold safeInteger at h
  exact ⟨by omega, by omega, by omega⟩

theorem sameNumber_floatInteger {m e n : Int} (h : floatInteger m e = some n) :
    Json.sameNumber (n, 0) (m, e) = true := by
  unfold floatInteger at h
  refine decide_eq_true_iff.2 ?_
  dsimp only
  split at h
  · rename_i he
    cases h
    simp [min_eq_left he]
  · rename_i he
    split at h
    · rename_i hdvd
      cases h
      have hlow : min 0 e = e := min_eq_right (by omega)
      rw [hlow, zero_sub, Int.ediv_mul_cancel (Int.dvd_of_emod_eq_zero hdvd)]
      simp
    · cases h

theorem visitNumber_eq_ok {whole : Option Int} {item v : Json}
    (h : visitNumber limits whole item budget = .ok (v, budget')) :
    (whole = none ∧ v = item) ∨
      ∃ n, whole = some n ∧ ¬ safeInteger < n.natAbs ∧ v = .int n := by
  unfold visitNumber at h
  cases whole with
  | none =>
    obtain ⟨spent, -, h⟩ := bind_eq_ok h
    cases h
    exact Or.inl ⟨rfl, rfl⟩
  | some n =>
    simp only at h
    split at h
    · cases h
    · rename_i hsafe
      obtain ⟨spent, -, h⟩ := bind_eq_ok h
      cases h
      exact Or.inr ⟨n, rfl, hsafe, rfl⟩

/-- **What a snapshot accepts is within the range, and the snapshot keeps its identity.** -/
theorem identity_visit {level : Nat} {v : Json} (hx : x.Everywhere Json.Held)
    (h : visit limits level x budget = .ok (v, budget')) :
    x.Everywhere Interoperable ∧ identity v = identity x := by
  induction x using Json.inductionOn generalizing v level budget budget' with
  | null | bool b | str s =>
    unfold visit at h
    obtain ⟨entered, -, h⟩ := bind_eq_ok h
    obtain ⟨spent, -, h⟩ := bind_eq_ok h
    cases h
    exact ⟨trivial, rfl⟩
  | int n =>
    unfold visit at h
    obtain ⟨entered, -, h⟩ := bind_eq_ok h
    rcases visitNumber_eq_ok h with ⟨hwhole, -⟩ | ⟨k, hwhole, hsafe, rfl⟩
    · cases hwhole
    · cases hwhole
      exact ⟨isBinary64_of_safe hsafe, rfl⟩
  | float m e =>
    refine ⟨hx, ?_⟩
    unfold visit at h
    obtain ⟨entered, -, h⟩ := bind_eq_ok h
    rcases visitNumber_eq_ok h with ⟨-, rfl⟩ | ⟨k, hwhole, hsafe, rfl⟩
    · rfl
    · exact (identityNumber_eq_iff (isBinary64_of_safe hsafe) hx).2 (sameNumber_floatInteger hwhole)
  | arr items ih =>
    rw [Json.everywhere_arr] at hx
    unfold visit at h
    obtain ⟨entered, -, h⟩ := bind_eq_ok h
    obtain ⟨⟨vs, visited⟩, hvisited, h⟩ := bind_eq_ok h
    obtain ⟨spent, -, h⟩ := bind_eq_ok h
    cases h
    have hall := visitItems_forall₂ hvisited
    refine ⟨Json.everywhere_arr.2 ⟨trivial, fun x hmem => ?_⟩, ?_⟩
    · obtain ⟨v, -, b, b', hvisit⟩ := forall₂_mem_left hall x hmem
      exact (ih x hmem (hx.2 x hmem) hvisit).1
    · refine identity_arr_eq_iff.2 (forall₂_imp_of_mem hall.flip fun v _ x hmem hvisit => ?_)
      obtain ⟨b, b', hvisit⟩ := hvisit
      exact (ih x hmem (hx.2 x hmem) hvisit).2
  | obj fields ih =>
    rw [Json.everywhere_obj] at hx
    unfold visit at h
    obtain ⟨entered, -, h⟩ := bind_eq_ok h
    obtain ⟨⟨vs, visited⟩, hvisited, h⟩ := bind_eq_ok h
    obtain ⟨spent, -, h⟩ := bind_eq_ok h
    cases h
    have hall := visitFields_forall₂ hvisited
    refine ⟨Json.everywhere_obj.2 ⟨hx.1, fun p hmem => ?_⟩, ?_⟩
    · obtain ⟨q, -, -, b, b', hvisit⟩ := forall₂_mem_left hall p hmem
      exact (ih p hmem (hx.2 p hmem) hvisit).1
    · have hcodes : List.Forall₂ (fun q p => q.1 = p.1 ∧ identity q.2 = identity p.2) vs fields := by
        refine forall₂_imp_of_mem hall.flip fun q _ p hmem hvisit => ?_
        obtain ⟨hkey, b, b', hvisit⟩ := hvisit
        exact ⟨hkey, (ih p hmem (hx.2 p hmem) hvisit).2⟩
      have hfields : identityFields vs = identityFields fields := by
        rw [identityFields_eq, identityFields_eq]
        exact map_eq_of_forall₂ hcodes fun q _ p h => by rw [h.1, h.2]
      rw [identity, identity, hfields, hcodes.length_eq]

end Purra
