import RadioModem.Proofs.OneReply
import RadioModem.Proofs.ReplyLines

/-!
# The words of an identity

Who a node is, it says in words that its configuration gives it, and they are put on a line as they
stand. Words that break the line, and words that are verdicts, are taken for something else there.
-/
namespace RadioModem

/-- The words that a line asks for. -/
def Identity.words? (i : Identity) (line : String) : Option String :=
  match Request.parse line with
  | .here (.ok (.info .banner)) => some i.banner
  | .here (.ok (.info .version)) => some i.version
  | _ => none

/-- The words stand on one line of the node, and whoever reads that line finds them as data. -/
structure TellsWords (node : Address) (words reply : String) : Prop where
  written : reply = nodeTag node ++ words ++ "\n"
  oneLine : Unbroken (nodeTag node ++ words)
  readBack : Reply.parse reply = some ⟨node, .data words⟩

section
variable {i : Identity} {line words : String} {node : Address}

lemma Identity.words?_lines (i : Identity) :
    i.words? "ATI" = some i.banner ∧ i.words? "ATI0" = some i.banner ∧
      i.words? "ATI1" = some i.version := ⟨rfl, rfl, rfl⟩

lemma Identity.words?_eq_some (h : i.words? line = some words) :
    ∃ query, Request.parse line = .here (.ok (.info query)) ∧
      ∀ n : Node, n.identity = i → query.texts n = [words] := by
  unfold words? at h
  split at h
  · next hparse =>
    obtain rfl := Option.some.inj h
    exact ⟨.banner, hparse, fun n hn => by rw [Query.texts, hn]⟩
  · next hparse =>
    obtain rfl := Option.some.inj h
    exact ⟨.version, hparse, fun n hn => by rw [Query.texts, hn]⟩
  · cases h

/-- Words are read back unless their end is cut off, or they are a verdict. -/
lemma parse_frame_data_iff : Reply.parse (frame node words) = some ⟨node, .data words⟩ ↔
    Reply.Stripped words words ∧ words ≠ okText ∧ words ≠ errorText := by
  have hkept := Reply.stripped_trimmed words
  generalize String.ofList (Reply.trimmed words.toList) = kept at hkept
  have hread := Reply.parse_frame_stripped hkept node
  constructor
  · intro h
    obtain ⟨-, hbody⟩ := Reply.mk.inj (Option.some.inj (hread.symm.trans h))
    obtain ⟨rfl, hverdict⟩ := ReplyBody.ofText_eq_data_iff.mp hbody
    exact ⟨hkept, hverdict⟩
  · rintro ⟨hwhole, hverdict⟩
    rw [Reply.parse_frame_stripped hwhole node, ReplyBody.ofText_eq_data_iff.mpr ⟨rfl, hverdict⟩]

lemma Unbroken.stripped (h : Unbroken words) : Reply.Stripped words words :=
  ⟨⟨"", String.append_empty.symm, by simp⟩, fun c hc => h c (List.mem_of_getLast? hc)⟩

lemma tellsWords_frame_iff : TellsWords node words (frame node words) ↔
    Unbroken words ∧ words ≠ okText ∧ words ≠ errorText := by
  constructor
  · intro h
    exact ⟨(unbroken_append.mp h.oneLine).2, (parse_frame_data_iff.mp h.readBack).2⟩
  · rintro ⟨hunbroken, hverdict⟩
    exact ⟨frame_eq node words, unbroken_append.mpr ⟨unbroken_nodeTag node, hunbroken⟩,
      parse_frame_data_iff.mpr ⟨hunbroken.stripped, hverdict⟩⟩

end

namespace Node
variable {c : Configuration} {n : Node} {line words : String}

/-- A node writes the words it is asked for on a line of its own, as they stand. They are told if
they do not break that line and are no verdict, and they are read back from it if they do not end in
a line break and are no verdict. -/
theorem identity_told_iff (h : n.Reachable c) (f : Features) (t : TestMode)
    (hwords : c.identity.words? line = some words) :
    let reply := (Dispatch.run f n t line).reply
    let node := c.identity.node
    reply = frame node words ∧
    (TellsWords node words reply ↔ Unbroken words ∧ words ≠ okText ∧ words ≠ errorText) ∧
    (Reply.parse reply = some ⟨node, .data words⟩ ↔
      Reply.Stripped words words ∧ words ≠ okText ∧ words ≠ errorText) := by
  intro reply node
  obtain ⟨query, hparse, htexts⟩ := Identity.words?_eq_some hwords
  have hreply : reply = frame node words := by
    have htold := reply_told (f := f) hparse rfl (htexts n h.identity) t
    rwa [h.identity] at htold
  rw [hreply]
  exact ⟨rfl, tellsWords_frame_iff, parse_frame_data_iff⟩

def bannered (banner : String) : Configuration :=
  { Configuration.standard with identity := { Identity.standard with banner } }

theorem identity_told_iff_bannered :
    (∃ n, ofConfiguration .standard = .ok n ∧ n.Reachable .standard ∧
      Configuration.standard.identity.words? "ATI0" = some "RFModem Multipoint" ∧
      TellsWords 0 "RFModem Multipoint" (Dispatch.run ⟨false, false⟩ n .clear "ATI0").reply) ∧
    ∃ n, ofConfiguration (bannered "ERROR") = .ok n ∧ n.Reachable (bannered "ERROR") ∧
      (bannered "ERROR").identity.words? "ATI" = some "ERROR" ∧
      ¬TellsWords 0 "ERROR" (Dispatch.run ⟨false, false⟩ n .clear "ATI").reply := by
  obtain ⟨n, hn⟩ : ∃ n, ofConfiguration .standard = .ok n := ⟨_, rfl⟩
  obtain ⟨failed, hfailed⟩ : ∃ n, ofConfiguration (bannered "ERROR") = .ok n := ⟨_, rfl⟩
  refine ⟨⟨n, hn, .fresh hn, (Identity.words?_lines _).2.1, ?_⟩, failed, hfailed, .fresh hfailed,
    (Identity.words?_lines _).1, fun htold => ?_⟩
  · exact (identity_told_iff (.fresh hn) ⟨false, false⟩ .clear rfl).2.1.mpr (by decide)
  · have hverdict := (identity_told_iff (.fresh hfailed) ⟨false, false⟩ .clear rfl).2.1.mp htold
    exact hverdict.2.2 rfl

/-- A configuration may give words of two lines. They are accepted, and the second line is sent
without a tag. -/
theorem banner_breaks_line : ¬∀ (c : Configuration) (n : Node) (f : Features) (t : TestMode)
    (line words : String), c.validated = .ok c → ofConfiguration c = .ok n →
      line = "ATI" ∨ line = "ATI0" ∨ line = "ATI1" → c.identity.words? line = some words →
        TellsWords c.identity.node words (Dispatch.run f n t line).reply := by
  intro h
  obtain ⟨n, hn⟩ : ∃ n, ofConfiguration (bannered "RADIO\nNODE") = .ok n := ⟨_, rfl⟩
  have htold := h _ n ⟨false, false⟩ .clear "ATI" _ rfl hn (.inl rfl) (Identity.words?_lines _).1
  have hbreak := htold.oneLine '\n' (by decide)
  cases hbreak

end Node

end RadioModem
