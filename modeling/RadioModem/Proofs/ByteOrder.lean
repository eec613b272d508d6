import Mathlib.Data.String.Basic
import RadioModem.Configuration.Basic

/-!
# The order of names

Start-up values are kept in the order of the code points of their names. This is the order of the
bytes in which the names are written, since a character with a higher code point is written with a
higher byte where it first differs.
-/
namespace RadioModem

/-- The bytes that a text is written in. -/
def utf8Bytes (s : String) : List UInt8 := s.toUTF8.data.toList

lemma utf8Bytes_eq (s : String) : utf8Bytes s = s.toList.flatMap String.utf8EncodeChar := by
  rw [utf8Bytes, ← String.ofList_toList (s := s), String.toList_ofList]
  exact (congrArg (·.data.toList) String.toByteArray_ofList).trans List.toList_data_toByteArray

lemma utf8Bytes_append (s t : String) : utf8Bytes (s ++ t) = utf8Bytes s ++ utf8Bytes t := by
  simp [utf8Bytes_eq]

lemma utf8Bytes_ofList (text : List Char) :
    utf8Bytes (String.ofList text) = text.flatMap String.utf8EncodeChar := by
  rw [utf8Bytes_eq, String.toList_ofList]

/-! ### Bytes of characters -/

lemma ofNat_cons_lt {m n : Nat} {xs ys : List UInt8} (hmn : m ≤ n) (hn : n < 256)
    (h : m = n → xs < ys) : UInt8.ofNat m :: xs < UInt8.ofNat n :: ys := by
  rw [List.cons_lt_cons_iff]
  rcases Nat.lt_or_eq_of_le hmn with hlt | rfl
  · left
    rwa [UInt8.lt_iff_toNat_lt, UInt8.toNat_ofNat_of_lt' hn,
      UInt8.toNat_ofNat_of_lt' (hlt.trans hn)]
  · exact .inr ⟨rfl, h rfl⟩

lemma utf8EncodeChar_lt {a b : Char} (h : a < b) (xs ys : List UInt8) :
    String.utf8EncodeChar a ++ xs < String.utf8EncodeChar b ++ ys := by
  have hlt : a.val.toNat < b.val.toNat := h
  have hb : b.val.toNat < 0x110000 := by
    rcases b.valid with hv | hv <;> omega
  unfold String.utf8EncodeChar
  generalize a.val.toNat = v at hlt
  generalize b.val.toNat = w at hlt hb
  dsimp only
  -- A character that takes more bytes has a higher first byte; where both take as many, the bytes
  -- are digits of the code points. So each byte is at most its counterpart, until one is less.
  split_ifs <;> simp only [List.cons_append, List.nil_append]
  all_goals
    repeat first
      | omega
      | refine ofNat_cons_lt (by omega) (by omega) fun _ => ?_

lemma flatMap_utf8EncodeChar_lt {xs ys : List Char} (h : xs < ys) :
    xs.flatMap String.utf8EncodeChar < ys.flatMap String.utf8EncodeChar := by
  induction h with
  | @nil a ys =>
    have hlength : (String.utf8EncodeChar a).length ≠ 0 :=
      String.length_utf8EncodeChar a ▸ Nat.ne_of_gt a.utf8Size_pos
    obtain ⟨byte, bytes, hbytes⟩ := List.exists_cons_of_length_pos (Nat.pos_of_ne_zero hlength)
    rw [List.flatMap_cons, hbytes]
    exact List.nil_lt_cons ..
  | rel h => exact utf8EncodeChar_lt h _ _
  | cons _ ih => exact List.append_left_lt ih

/-- Texts in the order of their code points are in the order of their bytes. -/
theorem utf8Bytes_lt {s t : String} (h : s < t) : utf8Bytes s < utf8Bytes t := by
  rw [utf8Bytes_eq, utf8Bytes_eq]
  exact flatMap_utf8EncodeChar_lt (String.lt_iff.mp h)

namespace Overrides

/-- Each name once, in the order of their bytes. -/
def InByteOrder (values : Overrides) : Prop :=
  values.Pairwise fun a b => utf8Bytes a.1 < utf8Bytes b.1

variable {values : Overrides} {name : String} {value : Nat}

section
variable {before later : Overrides} {entry other : String × Nat}

lemma InByteOrder.lt_of_later (h : InByteOrder (before ++ entry :: later)) (ho : other ∈ later) :
    utf8Bytes entry.1 < utf8Bytes other.1 :=
  (List.pairwise_cons.mp (List.pairwise_append.mp h).2.1).1 other ho

lemma InByteOrder.lt_of_before (h : InByteOrder (before ++ entry :: later)) (ho : other ∈ before) :
    utf8Bytes other.1 < utf8Bytes entry.1 :=
  (List.pairwise_append.mp h).2.2 other ho entry List.mem_cons_self

lemma InByteOrder.later_of_lt (h : InByteOrder (before ++ entry :: later))
    (ho : other ∈ before ++ entry :: later) (hlt : utf8Bytes entry.1 < utf8Bytes other.1) :
    other ∈ later := by
  rcases List.mem_append.mp ho with ho | ho
  · exact absurd hlt (List.lt_asymm (h.lt_of_before ho))
  · rcases List.mem_cons.mp ho with rfl | ho
    · exact absurd hlt (List.lt_irrefl _)
    · exact ho

lemma InByteOrder.before_of_lt (h : InByteOrder (before ++ entry :: later))
    (ho : other ∈ before ++ entry :: later) (hlt : utf8Bytes other.1 < utf8Bytes entry.1) :
    other ∈ before := by
  rcases List.mem_append.mp ho with ho | ho
  · exact ho
  · rcases List.mem_cons.mp ho with rfl | ho
    · exact absurd hlt (List.lt_irrefl _)
    · exact absurd hlt (List.lt_asymm (h.lt_of_later ho))

end

lemma mem_put {entry : String × Nat} (h : entry ∈ values.put name value) :
    entry = (name, value) ∨ entry ∈ values := by
  induction values with
  | nil => exact .inl (List.mem_singleton.mp h)
  | cons head rest ih =>
    unfold put at h
    split at h
    · exact List.mem_cons.mp h
    · split at h
      · exact (List.mem_cons.mp h).imp_right (List.mem_cons_of_mem _)
      · rcases List.mem_cons.mp h with rfl | h
        · exact .inr List.mem_cons_self
        · exact (ih h).imp_right (List.mem_cons_of_mem _)

lemma put_sorted (h : values.Pairwise (·.1 < ·.1)) (name : String) (value : Nat) :
    (values.put name value).Pairwise (·.1 < ·.1) := by
  induction values with
  | nil => exact List.pairwise_singleton ..
  | cons head rest ih =>
    obtain ⟨hhead, hrest⟩ := List.pairwise_cons.mp h
    unfold put
    split
    · next hlt =>
      refine List.pairwise_cons.mpr ⟨List.forall_mem_cons.mpr ⟨hlt, fun entry he => ?_⟩, h⟩
      exact hlt.trans (hhead entry he)
    · split
      · next heq => exact List.pairwise_cons.mpr ⟨heq ▸ hhead, hrest⟩
      · next hnot hne =>
        have hlt : head.1 < name := lt_of_le_of_ne (not_lt.mp hnot) (Ne.symm hne)
        refine List.pairwise_cons.mpr ⟨fun entry he => ?_, ih hrest⟩
        rcases mem_put he with rfl | he
        · exact hlt
        · exact hhead entry he

theorem ofList_inByteOrder (entries : List (String × Nat)) : (ofList entries).InByteOrder := by
  have hsorted (values : Overrides) (h : values.Pairwise (·.1 < ·.1)) :
      (entries.foldl (fun sorted entry => put entry.1 entry.2 sorted) values).Pairwise
        (·.1 < ·.1) := by
    induction entries generalizing values with
    | nil => exact h
    | cons entry entries ih => exact ih _ (put_sorted h entry.1 entry.2)
  exact (hsorted [] .nil).imp utf8Bytes_lt

end Overrides

end RadioModem
