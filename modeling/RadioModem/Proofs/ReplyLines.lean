import RadioModem.Proofs.Framing

/-!
# Reply lines

A framed text is read back from its line whatever it holds; only the line breaks at its end are
lost, since nothing tells them from the end of the line. The lines that are read as replies are
those that open with a number in brackets, and each of them is read in one way only.
-/
namespace RadioModem

namespace Reply

/-- A text without the line breaks at its end. -/
structure Stripped (text kept : String) : Prop where
  ending : ∃ breaks : String, text = kept ++ breaks ∧ ∀ c ∈ breaks.toList, isLineBreak c = true
  last : ∀ c ∈ kept.toList.getLast?, isLineBreak c = false

variable {line text kept : String} {reply : Reply}

lemma last_trimmed (text : List Char) : ∀ c ∈ (trimmed text).getLast?, isLineBreak c = false := by
  intro c hc
  obtain ⟨hne, rfl⟩ := List.mem_getLast?_eq_getLast hc
  exact Bool.eq_false_of_not_eq_true (List.rdropWhile_last_not isLineBreak text hne)

/-- Taking the line breaks off is the only way to strip a text. -/
lemma stripped_iff : Stripped text kept ↔ kept.toList = trimmed text.toList := by
  constructor
  · rintro ⟨⟨breaks, rfl, hbreaks⟩, hlast⟩
    rw [String.toList_append, trimmed_append_breaks _ hbreaks, trimmed_eq_self hlast]
  · intro h
    refine ⟨⟨String.ofList (text.toList.rtakeWhile isLineBreak), ?_, ?_⟩, ?_⟩
    · have hsplit := List.rdropWhile_append_rtakeWhile (p := isLineBreak) (l := text.toList)
      rw [← String.toList_inj, String.toList_append, String.toList_ofList, h]
      exact hsplit.symm
    · intro c hc
      rw [String.toList_ofList] at hc
      exact List.mem_rtakeWhile_imp hc
    · rw [h]
      exact last_trimmed text.toList

lemma stripped_trimmed (text : String) : Stripped text (String.ofList (trimmed text.toList)) :=
  stripped_iff.mpr String.toList_ofList

/-- A tag ends in a space, so what is framed ends where its text does. -/
lemma Stripped.frame (h : Stripped text kept) (node : Address) :
    Stripped (RadioModem.frame node text) (nodeTag node ++ kept) := by
  obtain ⟨⟨breaks, rfl, hbreaks⟩, hlast⟩ := h
  refine ⟨⟨breaks ++ "\n", ?_, fun c hc => ?_⟩, fun c hc => ?_⟩
  · rw [frame_eq]
    simp only [String.append_assoc]
  · rw [String.toList_append, List.mem_append] at hc
    rcases hc with hc | hc
    · exact hbreaks c hc
    · rw [List.mem_singleton.mp hc]
      rfl
  · rw [String.toList_append] at hc
    cases hkept : kept.toList with
    | nil =>
      have hspace : ∀ c ∈ (nodeTag node).toList.getLast?, isLineBreak c = false := fun c hc =>
        unbroken_nodeTag node c (List.mem_of_getLast? hc)
      rw [hkept, List.append_nil] at hc
      exact hspace c hc
    | cons first rest =>
      rw [List.getLast?_append_of_ne_nil _ (by simp [hkept])] at hc
      exact hlast c hc

/-! ### Reading a line -/

/-- A line is read at the first tag in it, which has to stand at its front and to hold a number. -/
lemma parse_eq_some_iff : parse line = some reply ↔ ∃ tag body,
    trimmed line.toList = '[' :: (tag ++ ']' :: ' ' :: body) ∧
      Text.Decimal.word16 tag = some reply.node ∧ reply.body = .ofText (String.ofList body) := by
  constructor
  · intro h
    unfold parse at h
    split at h
    · next rest hrest =>
      obtain ⟨⟨tag, body⟩, hsplit, h⟩ := Option.bind_eq_some_iff.mp h
      obtain ⟨node, hnode, h⟩ := Option.bind_eq_some_iff.mp h
      obtain rfl := Option.some.inj h
      exact ⟨tag, body, by rw [hrest, splitTag_eq hsplit], hnode, rfl⟩
    · cases h
  · rintro ⟨tag, body, hline, hnode, hbody⟩
    have hclose : ']' ∉ tag := notMem_of_word16 hnode rfl (by decide)
    rw [parse, hline]
    simp only [splitTag_of_notMem hclose, hnode, bind, Option.bind_some, ← hbody]
    rfl

/-- The same, said of texts. -/
lemma parse_tag_iff : parse line = some reply ↔ ∃ tag body : String,
    Stripped line ("[" ++ tag ++ "] " ++ body) ∧ SpellsSigned tag reply.node.toNat ∧
      reply.body = .ofText body := by
  have hline (tag body : String) : ("[" ++ tag ++ "] " ++ body).toList =
      '[' :: (tag.toList ++ ']' :: ' ' :: body.toList) := by simp
  rw [parse_eq_some_iff]
  constructor
  · rintro ⟨tag, body, htrimmed, hnode, hbody⟩
    refine ⟨String.ofList tag, String.ofList body, stripped_iff.mpr ?_,
      Text.Decimal.word16_eq_some_iff.mp hnode, hbody⟩
    rw [hline, String.toList_ofList, String.toList_ofList, htrimmed]
  · rintro ⟨tag, body, hstripped, hnode, hbody⟩
    refine ⟨tag.toList, body.toList, ?_, ?_, by rw [hbody, String.ofList_toList]⟩
    · rw [← stripped_iff.mp hstripped, hline]
    · rwa [Text.Decimal.word16_eq_some_iff, String.ofList_toList]

/-- A framed text is read back without the line breaks at its end. -/
lemma parse_frame_stripped (h : Stripped text kept) (node : Address) :
    parse (frame node text) = some ⟨node, .ofText kept⟩ :=
  parse_tag_iff.mpr
    ⟨toString node.toNat, kept, h.frame node, ⟨_, spells_toString _, .inl rfl⟩, rfl⟩

end Reply

namespace ReplyBody
variable {text data : String}

lemma ofText_eq_ok_iff : ofText text = ok ↔ text = okText := by
  unfold ofText
  split_ifs with hok herror <;> simp [hok]

lemma ofText_eq_error_iff : ofText text = error ↔ text = errorText := by
  unfold ofText
  split_ifs with hok herror
  · simp [hok, okText, errorText]
  · simp [herror]
  · simp [herror]

lemma ofText_eq_data_iff :
    ofText text = .data data ↔ data = text ∧ text ≠ okText ∧ text ≠ errorText := by
  unfold ofText
  split_ifs with hok herror
  · simp [hok]
  · simp [herror]
  · simp [hok, herror, eq_comm]

end ReplyBody

namespace Reply

/-- Framing and reading are inverse. Of a framed text nothing but the line breaks at its end is
lost, and a line is read exactly if it is a framed text up to those, to the node and the text that
are in it; a sign and zeros may stand in front of the number. -/
theorem framing_inverse :
    (∀ (node : Address) (text : String), ∃ kept, (∀ other, Stripped text other ↔ other = kept) ∧
      parse (frame node text) = some ⟨node, .ofText kept⟩) ∧
    (∀ (line : String) (reply : Reply), parse line = some reply ↔ ∃ (tag body : String) (n : Nat),
      Stripped line ("[" ++ tag ++ "] " ++ body) ∧ SpellsSigned tag n ∧ n ≤ 65535 ∧
        reply.node.toNat = n ∧ reply.body = .ofText body) ∧
    ∀ text, (ReplyBody.ofText text = .ok ↔ text = "OK") ∧
      (ReplyBody.ofText text = .error ↔ text = "ERROR") ∧
      ∀ data, ReplyBody.ofText text = .data data ↔
        data = text ∧ text ≠ "OK" ∧ text ≠ "ERROR" := by
  refine ⟨fun node text => ?_, fun line reply => ?_, fun text => ?_⟩
  · refine ⟨String.ofList (trimmed text.toList), fun other => ?_,
      parse_frame_stripped (stripped_trimmed text) node⟩
    rw [stripped_iff, ← String.toList_inj, String.toList_ofList]
  · rw [parse_tag_iff]
    constructor
    · rintro ⟨tag, body, hline, hnode, hbody⟩
      have hsmall : reply.node.toNat ≤ 65535 := Nat.le_of_lt_succ reply.node.toNat_lt
      exact ⟨tag, body, _, hline, hnode, hsmall, rfl, hbody⟩
    · rintro ⟨tag, body, n, hline, hnode, -, rfl, hbody⟩
      exact ⟨tag, body, hline, hnode, hbody⟩
  · exact ⟨ReplyBody.ofText_eq_ok_iff, ReplyBody.ofText_eq_error_iff,
      fun data => ReplyBody.ofText_eq_data_iff⟩

example : parse (frame 3 "[1] a] b\r\n") = some ⟨3, .data "[1] a] b"⟩ := by decide

end Reply

end RadioModem
