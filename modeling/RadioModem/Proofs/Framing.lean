import Mathlib.Data.List.DropRight
import RadioModem.Proofs.Decimal
import RadioModem.Proofs.Node

/-!
# Framed texts

Texts that a node puts on lines of their own, and what a reader makes of such a line: the node and
the text, whatever the text is, as long as it does not break the line itself.
-/
namespace RadioModem

/-- Texts as lines of the given node, one after the other. -/
def frames (node : Address) (texts : List String) : String := String.join (texts.map (frame node))

/-- A text that stays on its line. -/
def Unbroken (text : String) : Prop := ∀ c ∈ text.toList, Reply.isLineBreak c = false

instance (text : String) : Decidable (Unbroken text) :=
  List.decidableBAll (fun c => Reply.isLineBreak c = false) text.toList

section
variable {node : Address} {text : String} {texts : List String}

lemma frame_eq (node : Address) (text : String) : frame node text = nodeTag node ++ text ++ "\n" :=
  rfl

@[simp] lemma frames_nil (node : Address) : frames node [] = "" := rfl

@[simp] lemma frames_singleton (node : Address) (text : String) :
    frames node [text] = frame node text := by simp [frames]

@[simp] lemma frames_cons (node : Address) (text : String) (texts : List String) :
    frames node (text :: texts) = frame node text ++ frames node texts := by
  simp [frames]

@[simp] lemma frames_append (node : Address) (a b : List String) :
    frames node (a ++ b) = frames node a ++ frames node b := by simp [frames]

lemma frames_eq_empty_iff : frames node texts = "" ↔ texts = [] := by
  cases texts with
  | nil => simp
  | cons text texts => simp [frame]

/-! ### Texts that stay on their line -/

@[simp] lemma unbroken_append {a b : String} : Unbroken (a ++ b) ↔ Unbroken a ∧ Unbroken b := by
  simp [Unbroken, or_imp, forall_and]

lemma isLineBreak_of_isDigit {c : Char} (h : c.isDigit = true) : Reply.isLineBreak c = false := by
  by_contra hbreak
  rw [Bool.not_eq_false, Reply.isLineBreak, Bool.or_eq_true, beq_iff_eq, beq_iff_eq] at hbreak
  rcases hbreak with rfl | rfl <;> cases h

@[simp] lemma unbroken_repr (n : Nat) : Unbroken n.repr := by
  intro c hc
  rw [Nat.toList_repr] at hc
  exact isLineBreak_of_isDigit (isDigit_of_mem_toDigits hc)

lemma unbroken_nodeTag (node : Address) : Unbroken (nodeTag node) := by
  have hopen : Unbroken "[" := by decide
  have hclose : Unbroken "] " := by decide
  simp [nodeTag, hopen, hclose]

/-! ### Reading a framed text -/

namespace Reply

lemma trimmed_append_breaks (front : List Char) {tail : List Char}
    (htail : ∀ c ∈ tail, isLineBreak c = true) : trimmed (front ++ tail) = trimmed front := by
  have hreverse : ∀ c ∈ tail.reverse, isLineBreak c = true := by simpa using htail
  rw [trimmed, List.reverse_append, List.dropWhile_append_of_pos hreverse, trimmed]

/-- A text that does not end in a line break is left as it is. -/
lemma trimmed_eq_self {text : List Char} (h : ∀ c ∈ text.getLast?, isLineBreak c = false) :
    trimmed text = text := by
  refine List.rdropWhile_eq_self_iff.mpr fun hne => ?_
  simp [h _ (List.getLast?_eq_some_getLast hne)]

/-- Line breaks are taken off the end, up to the last character that is none. -/
lemma trimmed_append (front : List Char) {line tail : List Char} (hne : line ≠ [])
    (hline : ∀ c ∈ line, isLineBreak c = false) (htail : ∀ c ∈ tail, isLineBreak c = true) :
    trimmed (front ++ line ++ tail) = front ++ line := by
  rw [trimmed_append_breaks _ htail]
  refine trimmed_eq_self fun c hc => hline c (List.mem_of_getLast? ?_)
  rwa [Option.mem_def, List.getLast?_append_of_ne_nil _ hne] at hc

lemma splitTag_of_notMem {tag : List Char} (h : ']' ∉ tag) (body : List Char) :
    splitTag (tag ++ ']' :: ' ' :: body) = some (tag, body) := by
  induction tag with
  | nil => rfl
  | cons c tag ih =>
    obtain ⟨hc, htag⟩ : ']' ≠ c ∧ ']' ∉ tag := by simpa using h
    have hsplit : splitTag (c :: (tag ++ ']' :: ' ' :: body)) =
        (splitTag (tag ++ ']' :: ' ' :: body)).map fun split => (c :: split.1, split.2) := by
      rw [splitTag]
      rintro rest rfl
      exact absurd rfl hc
    rw [List.cons_append, hsplit, ih htag]
    rfl

end Reply

lemma word16_toDigits (a : Address) : Text.Decimal.word16 (Nat.toDigits 10 a.toNat) = some a :=
  Text.Decimal.word16_eq_some_iff.mpr ⟨_, spells_toString a.toNat, .inl rfl⟩

/-- A number that was read holds digits, and a sign that may stand in front of them. -/
lemma notMem_of_word16 {tag : List Char} {a : Address} (h : Text.Decimal.word16 tag = some a)
    {c : Char} (hdigit : c.isDigit = false) (hsign : c ≠ '+') : c ∉ tag := by
  obtain ⟨digits, hspells, htag⟩ := Text.Decimal.word16_eq_some_iff.mp h
  have hdigits : c ∉ digits.toList := fun hmem => by
    rw [hspells.digits c hmem] at hdigit
    cases hdigit
  rw [← String.toList_ofList (l := tag)]
  rcases htag with heq | heq
  · rwa [heq]
  · rw [heq, String.toList_append, List.mem_append]
    exact not_or.mpr ⟨fun hmem => hsign (List.mem_singleton.mp hmem), hdigits⟩

lemma ofText_inj {a b : String} (h : ReplyBody.ofText a = ReplyBody.ofText b) : a = b := by
  unfold ReplyBody.ofText at h
  split_ifs at h with ha hb hb ha hb hb hb
  all_goals simp_all

namespace Reply

/-- The tag of a node is read off in front of any text, with or without line breaks at the end. -/
theorem parse_tagged (node : Address) (htext : Unbroken text) {tail : String}
    (htail : ∀ c ∈ tail.toList, isLineBreak c = true) :
    parse (nodeTag node ++ text ++ tail) = some ⟨node, .ofText text⟩ := by
  have htag : ']' ∉ Nat.toDigits 10 node.toNat := fun hmem =>
    absurd (isDigit_of_mem_toDigits hmem) (by decide)
  have hline : (nodeTag node ++ text).toList =
      '[' :: (Nat.toDigits 10 node.toNat ++ ']' :: ' ' :: text.toList) := by simp [nodeTag]
  have hkept := unbroken_append.mpr ⟨unbroken_nodeTag node, htext⟩
  have htrimmed := trimmed_append [] (by simp [hline]) hkept htail
  rw [List.nil_append] at htrimmed
  rw [parse, String.toList_append, htrimmed, hline]
  simp only [splitTag_of_notMem htag, word16_toDigits, String.ofList_toList, bind,
    Option.bind_some]
  rfl

/-- A split at the tag leaves nothing out. -/
lemma splitTag_eq {text tag body : List Char} (h : splitTag text = some (tag, body)) :
    text = tag ++ ']' :: ' ' :: body := by
  induction text generalizing tag with
  | nil => cases h
  | cons c text ih =>
    unfold splitTag at h
    split at h
    · next heq =>
      cases h
      simpa using heq
    · next c' text' hfree heq =>
      obtain ⟨rfl, rfl⟩ := List.cons.inj heq
      obtain ⟨⟨tag', body'⟩, hrest, hmap⟩ := Option.map_eq_some_iff.mp h
      cases hmap
      rw [ih hrest]
      rfl
    · next heq => cases heq

lemma parse_frame (node : Address) (htext : Unbroken text) :
    parse (frame node text) = some ⟨node, .ofText text⟩ := by
  rw [frame_eq]
  exact parse_tagged node htext (by simp [isLineBreak])

/-- A line without its end is read in the same way. -/
lemma parse_line (node : Address) (htext : Unbroken text) :
    parse (nodeTag node ++ text) = some ⟨node, .ofText text⟩ := by
  have hend : ∀ c ∈ "".toList, isLineBreak c = true := by simp
  have hread := parse_tagged node htext hend
  rwa [String.append_empty] at hread

/-- Anything in front of the tag keeps a reader from finding the text: either the line does not
open a tag at all, or another one is found first, or what is between the brackets is no number. -/
theorem parse_behind_iff (node : Address) (htext : Unbroken text) (front : String) :
    parse (front ++ (nodeTag node ++ text)) = some ⟨node, .ofText text⟩ ↔ front = "" := by
  refine ⟨fun h => ?_, fun h => ?_⟩
  · have hline : (nodeTag node ++ text).toList =
        '[' :: (Nat.toDigits 10 node.toNat ++ ']' :: ' ' :: text.toList) := by simp [nodeTag]
    have hkept := unbroken_append.mpr ⟨unbroken_nodeTag node, htext⟩
    have htrimmed := trimmed_append front.toList (by simp [hline]) hkept (List.forall_mem_nil _)
    rw [List.append_nil] at htrimmed
    rw [parse, String.toList_append, htrimmed, hline] at h
    rw [← String.toList_eq_nil_iff]
    cases hfront : front.toList with
    | nil => rfl
    | cons c rest =>
      rw [hfront, List.cons_append] at h
      split at h
      · next line heq =>
        obtain ⟨-, rfl⟩ := List.cons.inj heq
        obtain ⟨⟨tag, body⟩, hsplit, h⟩ := Option.bind_eq_some_iff.mp h
        obtain ⟨a, ha, h⟩ := Option.bind_eq_some_iff.mp h
        obtain ⟨-, hbody⟩ := Reply.mk.inj (Option.some.inj h)
        have hsame : body = text.toList := by rw [← ofText_inj hbody, String.toList_ofList]
        have hwhole := splitTag_eq hsplit
        rw [hsame] at hwhole
        have htag : rest ++ '[' :: Nat.toDigits 10 node.toNat = tag :=
          (List.append_left_inj (']' :: ' ' :: text.toList)).mp (by simpa using hwhole)
        exact absurd (htag ▸ by simp) (notMem_of_word16 ha (c := '[') rfl (by decide))
      · cases h
  · rw [h, String.empty_append]
    exact parse_line node htext

end Reply

end

end RadioModem
