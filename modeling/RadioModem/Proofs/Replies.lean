import RadioModem.Proofs.Framing
import RadioModem.Proofs.Grammar
import RadioModem.Proofs.Refusals

/-!
# What a line is answered

The texts of the reply to a line, told from the line and the node alone. Each text stays on a line
of its own and is read back from there, and what has been asked for is never taken for a verdict.
-/
namespace RadioModem

/-! ### The texts of a reply -/

def Registers.texts (r : Registers) : List String :=
  registerTable.mapIdx fun index info =>
    "S" ++ toString index ++ ":" ++ info.name ++ "=" ++ toString (r.get index)

namespace LinkSettings

def timingTexts (l : LinkSettings) : List String :=
  ["silence_period: " ++ toString l.silencePeriod, "tx_window_width: " ++ toString l.txWindowWidth,
    "max_data_packet_length: " ++ toString l.maxDataPacketLength]

def signalText (l : LinkSettings) : String :=
  "L/R RSSI: " ++ toString l.localRssi ++ "/" ++ toString l.remoteRssi ++ "  L/R noise: " ++
    toString l.localNoise ++ "/" ++ toString l.remoteNoise ++ " pkts: " ++
    toString l.receivedPackets

lemma timingReport_eq (l : LinkSettings) (node : Address) :
    l.timingReport node = frames node l.timingTexts := by
  simp [timingReport, timingTexts, String.append_assoc]

end LinkSettings

namespace Pins

def text (b : Pins) (index : Nat) : String :=
  "Pin:" ++ toString index ++ " " ++ Dispatch.directionText (b.direction index) ++ "Val: " ++
    toString (b.value index)

def texts (b : Pins) : List String := (List.range b.count).map b.text

end Pins

def Query.texts (n : Node) : Query → List String
  | banner => [n.identity.banner]
  | version => [n.identity.version]
  | boardId => [toString n.identity.boardId]
  | frequency => [toString n.identity.boardFrequency]
  | bootloader => [toString n.identity.bootloaderVersion]
  | parameters => n.registers.texts
  | timing => n.link.timingTexts
  | signal => [n.link.signalText]
  | sync => [Dispatch.syncText n]

/-- What a command is answered that is not refused. -/
def Command.texts (n : Node) : Command → List String
  | info query => query.texts n
  | pinList => n.pins.texts
  | pin index .read => ["val:" ++ toString (n.pins.value index)]
  | readRegister index => [toString (n.registers.get index)]
  | extended (.readChannel channel) => [toString (n.channel channel).toNat]
  | forceUpdate | testMode _ | online | reset => []
  | _ => [okText]

def Request.texts (f : Features) (n : Node) (r : Request) : List String :=
  if (r.refusal? f n).isSome then [errorText]
  else match r with
    | here (.ok command) => command.texts n
    | _ => []

namespace Node
variable {n : Node} {f : Features} {t : TestMode}

open Dispatch

/-- What a handler that takes its command answers. -/
def Tells (n : Node) (texts : List String) (h : Handled Node) : Prop :=
  ∀ text, h.answer = .ok text → text = frames n.identity.node texts

lemma answered_tells {text : String} {texts : List String}
    (h : text = frames n.identity.node texts) : Tells n texts (answered n text) :=
  fun _ hother => (Except.ok.inj hother) ▸ h

lemma registers_frames (r : Registers) (node : Address) :
    (List.range Registers.count).map (r.line node) = r.texts.map (frame node) := by
  have hlength : r.texts.length = Registers.count := List.length_mapIdx
  refine List.ext_getElem ?_ fun index hi hj => ?_
  · rw [List.length_map, List.length_range, List.length_map, hlength]
  · have hindex : index < registerTable.length := by
      rwa [List.length_map, Registers.texts, List.length_mapIdx] at hj
    have hinfo : Registers.info? index = some registerTable[index] :=
      List.getElem?_eq_getElem hindex
    simp only [List.getElem_map, List.getElem_range, Registers.line, hinfo, Registers.texts,
      List.getElem_mapIdx]

lemma info_tells (query : Query) : ∃ h, info n query = .ok h ∧ Tells n (query.texts n) h := by
  cases query with
  | parameters =>
    have hlines : (List.range (Board.registerCount n)).mapM
        (Board.registerLine n (Board.node n)) =
          .ok (n.registers.texts.map (frame n.identity.node)) :=
      List.mapM_pure.trans (congrArg Except.ok (registers_frames n.registers n.identity.node))
    refine ⟨answered n (frames n.identity.node n.registers.texts), ?_, answered_tells rfl⟩
    simp only [info, parameters, hlines]
    rfl
  | timing => exact ⟨_, rfl, answered_tells (n.link.timingReport_eq _)⟩
  | banner | version | boardId | frequency | bootloader | signal | sync =>
    exact ⟨_, rfl, answered_tells (frames_singleton _ _).symm⟩

lemma pinList_tells (n : Node) : ∃ h, pinList n = .ok h ∧ Tells n n.pins.texts h := by
  have hlines : (List.range (Board.pinCount n)).mapM (pinLine n) =
      .ok ((List.range n.pins.count).map fun index => frame n.identity.node (n.pins.text index)) :=
    List.mapM_pure
  refine ⟨answered n (String.join _), by rw [pinList, hlines]; rfl, answered_tells ?_⟩
  simp only [frames, Pins.texts, List.map_map, Function.comp_def]

lemma refused_tells (b : Node) (r : Refusal) (texts : List String) : Tells n texts (refused b r) :=
  fun _ h => by cases h

lemma accepted_tells {b : Node} (hb : b.identity = n.identity) :
    Tells n [okText] (accepted b) := by
  rw [accepted, answered, reply_of_identity hb]
  exact fun _ h => (Except.ok.inj h) ▸ (frames_singleton _ _).symm

lemma judged_tells {b : Node} (hb : b.identity = n.identity) (source : Rejector) (taken : Bool) :
    Tells n [okText] (judged source b taken) := by
  cases taken with
  | true => exact accepted_tells hb
  | false => exact refused_tells _ _ _

lemma calibrated_tells {run : Node → Handled Node} {texts : List String}
    (h : Tells n texts (run n)) : Tells n texts (withCalibration n run) := by
  unfold withCalibration
  split
  · exact h
  · exact refused_tells _ _ _

lemma extended_tells (request : Extended) :
    Tells n ((Command.extended request).texts n) (extended f n request) := by
  unfold extended
  split
  · cases request with
    | power pwm => exact accepted_tells (b := { n with power := _, diversity := false }) rfl
    | readChannel channel => exact calibrated_tells (answered_tells (frames_singleton _ _).symm)
    | writeChannel channel value =>
      exact calibrated_tells (judged_tells (setChannel_keeps n channel _).identity _ _)
    | lockCalibration =>
      exact calibrated_tells fun text h =>
        judged_tells (lockCalibration_keeps n).identity _ _ text h
  · exact refused_tells _ _ _

lemma pin_tells (index : Nat) (action : PinAction) : ∃ h, pin n index action = .ok h ∧
    Tells n ((Command.pin index action).texts n) h := by
  unfold pin
  split
  · cases action with
    | output | input => exact ⟨_, rfl, accepted_tells rfl⟩
    | read =>
      have hdirection : Board.pinDirection n index = .ok (n.pins.direction index) := rfl
      rw [hdirection]
      cases n.pins.direction index with
      | input => exact ⟨_, rfl, answered_tells (frames_singleton _ _).symm⟩
      | output => exact ⟨_, rfl, refused_tells _ _ _⟩
    | write level => exact ⟨_, rfl, judged_tells rfl _ _⟩
  · exact ⟨_, rfl, refused_tells _ _ _⟩

lemma readRegister_tells (index : Nat) : ∃ h, readRegister n index = .ok h ∧
    Tells n ((Command.readRegister index).texts n) h := by
  unfold readRegister
  split
  · exact ⟨_, rfl, answered_tells (frames_singleton _ _).symm⟩
  · exact ⟨_, rfl, refused_tells _ _ _⟩

lemma writeRegister_tells (index value : Nat) : ∃ h, writeRegister n index value = .ok h ∧
    Tells n [okText] h := by
  unfold writeRegister
  split
  · split
    · exact ⟨_, rfl, refused_tells _ _ _⟩
    · exact ⟨_, rfl, judged_tells rfl _ _⟩
  · exact ⟨_, rfl, refused_tells _ _ _⟩

/-! ### Whole lines -/

variable {refusal : Option Refusal} {texts : List String}

/-- A refusal is said in one word, and what is taken is answered by its texts. -/
lemma settled_tells {a : Attempt (Handled Node)} (hm : ∃ h, a = .ok h ∧ Made n refusal h)
    (hs : ∃ h, a = .ok h ∧ Tells n texts h) :
    (settled n t a).reply =
      frames n.identity.node (if refusal.isSome then [errorText] else texts) := by
  obtain ⟨h, rfl, hm⟩ := hm
  obtain ⟨same, heq, hs⟩ := hs
  cases heq
  cases hm with
  | refused r hj => exact (frames_singleton _ _).symm
  | told text hj => exact hs text rfl
  | changed hb hj => exact hs _ rfl

lemma execute_tells (command : Command) :
    (execute f n t command).reply = frames n.identity.node
      (if (command.refusal? f n).isSome then [errorText] else command.texts n) := by
  cases command with
  | attention => exact settled_tells ⟨_, rfl, made_accepted rfl⟩ ⟨_, rfl, accepted_tells rfl⟩
  | factoryReset =>
    have hb : ({ n with registers := n.registers.reset } : Node).identity = n.identity := rfl
    exact settled_tells ⟨_, rfl, made_accepted hb⟩ ⟨_, rfl, accepted_tells hb⟩
  | save =>
    have hb : ({ n with registers := n.registers.save } : Node).identity = n.identity := rfl
    exact settled_tells
      ⟨_, rfl, (made_accepted hb).with_journal (Journal.total_note _ _ _)⟩
      ⟨_, rfl, fun text h => accepted_tells hb text h⟩
  | forceUpdate | reset | testMode change | online => rfl
  | extended request =>
    exact settled_tells ⟨_, rfl, extended_made request⟩ ⟨_, rfl, extended_tells request⟩
  | info query => exact settled_tells (told_made (info_told n query)) (info_tells query)
  | pinList => exact settled_tells (told_made (pinList_told n)) (pinList_tells n)
  | pin index action => exact settled_tells (pin_made index action) (pin_tells index action)
  | readRegister index => exact settled_tells (readRegister_made index) (readRegister_tells index)
  | writeRegister index value =>
    exact settled_tells (writeRegister_made index value) (writeRegister_tells index value)

/-- What a line is answered is told from the line and the node. -/
theorem run_reply (f : Features) (n : Node) (t : TestMode) (line : String) :
    (Dispatch.run f n t line).reply =
      frames n.identity.node ((Request.parse line).texts f n) := by
  simp only [Dispatch.run]
  cases Request.parse line with
  | ignored => rfl
  | remote destination command => cases destination <;> rfl
  | here command =>
    cases command with
    | ok command => exact execute_tells command
    | error r => exact (frames_singleton _ _).symm

end Node

/-! ### Verdicts and data -/

/-- A text on a line of its own that cannot be taken for a verdict: its first character tells. -/
structure Datum (text : String) : Prop where
  unbroken : Unbroken text
  opening : ∃ c ∈ text.toList.head?, c ≠ 'O' ∧ c ≠ 'E'

lemma datum_iff {text : String} : Datum text ↔
    Unbroken text ∧ (text.toList.head?.any fun c => c != 'O' && c != 'E') = true := by
  rw [Option.any_eq_true]
  simp only [Bool.and_eq_true, bne_iff_ne]
  exact ⟨fun h => ⟨h.unbroken, h.opening⟩, fun h => ⟨h.1, h.2⟩⟩

instance (text : String) : Decidable (Datum text) := decidable_of_iff' _ datum_iff

lemma Datum.append {a b : String} (h : Datum a) (hb : Unbroken b) : Datum (a ++ b) := by
  obtain ⟨c, hc, hother⟩ := h.opening
  refine ⟨unbroken_append.mpr ⟨h.unbroken, hb⟩, c, ?_, hother⟩
  rw [String.toList_append, List.head?_append, Option.mem_def.mp hc]
  rfl

lemma Datum.ne {text : String} (h : Datum text) : text ≠ okText ∧ text ≠ errorText := by
  obtain ⟨c, hc, hother⟩ := h.opening
  constructor
  · rintro rfl
    exact hother.1 (Option.some.inj hc).symm
  · rintro rfl
    exact hother.2 (Option.some.inj hc).symm

lemma Datum.body {text : String} (h : Datum text) : ReplyBody.ofText text = .data text := by
  rw [ReplyBody.ofText, if_neg h.ne.1, if_neg h.ne.2]

lemma datum_repr (k : Nat) : Datum k.repr := by
  obtain ⟨c, rest, hdigits⟩ := List.exists_cons_of_ne_nil (Nat.toDigits_ne_nil (n := k) (b := 10))
  have hdigit : c.isDigit = true := isDigit_of_mem_toDigits (n := k) (by simp [hdigits])
  refine ⟨unbroken_repr k, c, by rw [Nat.toList_repr, hdigits]; rfl, ?_, ?_⟩ <;>
    · rintro rfl
      cases hdigit

lemma datum_number {a : String} (h : Datum a) (k : Nat) : Datum (a ++ toString k) :=
  h.append (unbroken_repr k)

lemma Registers.texts_datum (r : Registers) : ∀ text ∈ r.texts, Datum text := by
  intro text h
  obtain ⟨index, hindex, rfl⟩ := List.mem_mapIdx.mp h
  have hnames : ∀ info ∈ registerTable, Unbroken info.name := by decide
  have hname := hnames _ (List.getElem_mem hindex)
  have hopen : Datum "S" := by decide
  exact datum_number ((((datum_number hopen index).append (by decide)).append hname).append
    (by decide)) _

lemma Registers.texts_getElem? (r : Registers) {index : Nat} {info : RegisterInfo}
    (h : registerTable[index]? = some info) : r.texts[index]? =
      some ("S" ++ toString index ++ ":" ++ info.name ++ "=" ++ toString (r.get index)) := by
  rw [Registers.texts, List.getElem?_mapIdx, h]
  rfl

namespace LinkSettings

lemma timingTexts_datum (l : LinkSettings) : ∀ text ∈ l.timingTexts, Datum text := by
  simp only [timingTexts, List.forall_mem_cons]
  exact ⟨datum_number (by decide) _, datum_number (by decide) _, datum_number (by decide) _,
    List.forall_mem_nil _⟩

lemma signalText_datum (l : LinkSettings) : Datum l.signalText := by
  have hopen : Datum "L/R RSSI: " := by decide
  have hrssi := datum_number ((datum_number hopen l.localRssi).append (b := "/") (by decide))
    l.remoteRssi
  have hnoise := datum_number ((datum_number (hrssi.append (b := "  L/R noise: ") (by decide))
    l.localNoise).append (b := "/") (by decide)) l.remoteNoise
  exact datum_number (hnoise.append (by decide)) _

end LinkSettings

lemma Pins.texts_datum (b : Pins) : ∀ text ∈ b.texts, Datum text := by
  intro text h
  obtain ⟨index, -, rfl⟩ := List.mem_map.mp h
  have hdirection : Unbroken (Dispatch.directionText (b.direction index)) := by
    cases b.direction index <;> decide
  have hopen : Datum "Pin:" := by decide
  exact datum_number ((((datum_number hopen index).append (by decide)).append hdirection).append
    (by decide)) _

lemma syncText_datum (n : Node) : Datum (Dispatch.syncText n) := by
  unfold Dispatch.syncText
  split
  · decide
  · exact datum_number (by decide) _

/-! ### What is asked for -/

/-- How many lines a query is answered by. -/
def Query.lineCount : Query → Nat
  | parameters => 19
  | timing => 3
  | _ => 1

/-- How many lines of data a command is answered by; other commands are answered by no data. -/
def Command.dataLines? (n : Node) : Command → Option Nat
  | info query => some query.lineCount
  | pinList => some n.pins.count
  | pin _ .read | readRegister _ | extended (.readChannel _) => some 1
  | _ => none

/-- The two queries that are answered in the words of the configuration. -/
def Query.Worded (q : Query) : Prop := q = banner ∨ q = version

section
variable {n : Node} {f : Features}

lemma Query.texts_length (query : Query) : (query.texts n).length = query.lineCount := by
  cases query with
  | parameters => exact List.length_mapIdx
  | banner | version | boardId | frequency | bootloader | timing | signal | sync => rfl

lemma Query.texts_datum {query : Query} (h : ¬query.Worded) :
    ∀ text ∈ query.texts n, Datum text := by
  cases query with
  | banner => exact absurd (.inl rfl) h
  | version => exact absurd (.inr rfl) h
  | parameters => exact n.registers.texts_datum
  | timing => exact n.link.timingTexts_datum
  | signal => exact List.forall_mem_singleton.mpr n.link.signalText_datum
  | sync => exact List.forall_mem_singleton.mpr (syncText_datum n)
  | boardId | frequency | bootloader => exact List.forall_mem_singleton.mpr (datum_repr _)

namespace Command
variable {c : Command} {count : Nat}

lemma texts_length (h : c.dataLines? n = some count) : (c.texts n).length = count := by
  cases c with
  | info query =>
    cases h
    exact query.texts_length
  | pinList =>
    cases h
    simp [texts, Pins.texts]
  | pin index action => cases action <;> cases h; rfl
  | extended request => cases request <;> cases h; rfl
  | readRegister index =>
    cases h
    rfl
  | attention | factoryReset | save | forceUpdate | testMode | writeRegister | online | reset =>
    cases h

lemma texts_datum (hworded : ∀ query, c = .info query → ¬query.Worded)
    (h : c.dataLines? n = some count) : ∀ text ∈ c.texts n, Datum text := by
  cases c with
  | info query => exact Query.texts_datum (hworded query rfl)
  | pinList => exact n.pins.texts_datum
  | pin index action =>
    cases action with
    | read => exact List.forall_mem_singleton.mpr (datum_number (by decide) _)
    | output | input | write => cases h
  | extended request =>
    cases request with
    | readChannel channel => exact List.forall_mem_singleton.mpr (datum_repr _)
    | power | writeChannel | lockCalibration => cases h
  | readRegister index => exact List.forall_mem_singleton.mpr (datum_repr _)
  | attention | factoryReset | save | forceUpdate | testMode | writeRegister | online | reset =>
    cases h

/-- A command that asks for no data gets the one verdict or nothing. -/
lemma texts_verdict (h : c.dataLines? n = none) : c.texts n = [okText] ∨ c.texts n = [] := by
  cases c with
  | info query | pinList | readRegister index => cases h
  | pin index action =>
    cases action with
    | read => cases h
    | output | input | write => exact .inl rfl
  | extended request =>
    cases request with
    | readChannel => cases h
    | power | writeChannel | lockCalibration => exact .inl rfl
  | attention | factoryReset | save | writeRegister => exact .inl rfl
  | forceUpdate | testMode | online | reset => exact .inr rfl

end Command

/-! ### Lines of a reply -/

namespace Request
variable {r : Request}

lemma texts_refused {refusal : Refusal} (h : r.refusal? f n = some refusal) :
    r.texts f n = [errorText] := by simp [texts, h]

lemma texts_taken {c : Command} (h : c.refusal? f n = none) :
    (here (.ok c)).texts f n = c.texts n := by
  simp [texts, refusal?, h]

/-- An answer is one verdict, nothing, or the data that was asked for. -/
lemma texts_cases (f : Features) (n : Node) (r : Request) :
    (∃ refusal, r.refusal? f n = some refusal ∧ r.texts f n = [errorText]) ∨
    r.refusal? f n = none ∧ (r.texts f n = [okText] ∨ r.texts f n = [] ∨
      ∃ c count, r = here (.ok c) ∧ c.dataLines? n = some count ∧ r.texts f n = c.texts n) := by
  cases hr : r.refusal? f n with
  | some refusal => exact .inl ⟨refusal, rfl, texts_refused hr⟩
  | none =>
    refine .inr ⟨rfl, ?_⟩
    cases r with
    | ignored | remote => exact .inr (.inl rfl)
    | here command =>
      cases command with
      | error refusal => cases hr
      | ok c =>
        have htexts := texts_taken hr
        cases hdata : c.dataLines? n with
        | some count => exact .inr (.inr ⟨c, count, rfl, hdata, htexts⟩)
        | none =>
          rw [htexts]
          exact (Command.texts_verdict hdata).imp_right .inl

/-- No text breaks its line, unless the configuration's own words do. -/
lemma texts_unbroken (hwords : ∀ query, r = here (.ok (.info query)) → query.Worded →
    ∀ text ∈ query.texts n, Unbroken text) : ∀ text ∈ r.texts f n, Unbroken text := by
  rcases texts_cases f n r with ⟨-, -, htexts⟩ |
    ⟨-, htexts | htexts | ⟨c, count, rfl, hdata, htexts⟩⟩
  · rw [htexts, List.forall_mem_singleton]
    decide
  · rw [htexts, List.forall_mem_singleton]
    decide
  · rw [htexts]
    exact List.forall_mem_nil _
  · rw [htexts]
    by_cases hworded : ∃ query, c = .info query ∧ query.Worded
    · obtain ⟨query, rfl, hquery⟩ := hworded
      exact hwords query rfl hquery
    · have hplain : ∀ query, c = .info query → ¬query.Worded :=
        fun query hc hquery => hworded ⟨query, hc, hquery⟩
      exact fun text h => (Command.texts_datum hplain hdata text h).unbroken

/-- A verdict comes alone, and `ERROR` where there is a reason to refuse. -/
lemma texts_verdict (hworded : ∀ query, r = here (.ok (.info query)) → ¬query.Worded) :
    (okText ∈ r.texts f n → r.texts f n = [okText]) ∧
      (errorText ∈ r.texts f n → r.texts f n = [errorText]) ∧
      (errorText ∈ r.texts f n ↔ ∃ refusal, r.refusal? f n = some refusal) := by
  rcases texts_cases f n r with ⟨refusal, hr, htexts⟩ |
    ⟨hr, htexts | htexts | ⟨c, count, rfl, hdata, htexts⟩⟩
  · have hok : okText ∉ [errorText] := by decide
    rw [htexts, hr]
    exact ⟨fun h => absurd h hok, fun _ => rfl, by simp⟩
  · have herror : errorText ∉ [okText] := by decide
    rw [htexts, hr]
    exact ⟨fun _ => rfl, fun h => absurd h herror, iff_of_false herror (by simp)⟩
  · rw [htexts, hr]
    simp
  · have hdatum := Command.texts_datum (fun query hc => hworded query (hc ▸ rfl)) hdata
    have hok : okText ∉ c.texts n := fun h => (hdatum _ h).ne.1 rfl
    have herror : errorText ∉ c.texts n := fun h => (hdatum _ h).ne.2 rfl
    rw [htexts, hr]
    exact ⟨fun h => absurd h hok, fun h => absurd h herror, iff_of_false herror (by simp)⟩

lemma parse_readRegister {text : String} {index : Nat} (hi : Spells text index)
    (h : index < numberLimit) :
    parse ("ATS" ++ text ++ "?") = .here (.ok (.readRegister index)) := by
  have hline : ("ATS" ++ text ++ "?").toList = 'A' :: 'T' :: 'S' :: (text.toList ++ ['?']) := by
    simp
  rw [parse_local hline, Command.parse_of_spelling (.readRegister ⟨hi.digits, ?_, hi.value, h⟩)]
  simp

end Request

end

namespace Node
variable {n : Node} {f : Features}

lemma reply_told {line : String} {command : Command} {text : String}
    (h : Request.parse line = .here (.ok command)) (htaken : command.refusal? f n = none)
    (htext : command.texts n = [text]) (t : TestMode) :
    (Dispatch.run f n t line).reply = frame n.identity.node text := by
  rw [run_reply, h, Request.texts_taken htaken, htext, frames_singleton]

lemma reply_refused {line : String} {r : Refusal}
    (h : (Request.parse line).refusal? f n = some r) (t : TestMode) :
    (Dispatch.run f n t line).reply = frame n.identity.node errorText ∧
      (Dispatch.run f n t line).board = n := by
  have hreply : (Dispatch.run f n t line).reply = frame n.identity.node errorText := by
    rw [run_reply, Request.texts_refused h, frames_singleton]
  exact ⟨hreply, ((run_answered f n t line).unchanged (.inr hreply)).2.2.1⟩

lemma reply_unread {line : String} {r : Refusal} (h : Request.parse line = .here (.error r))
    (t : TestMode) : (Dispatch.run f n t line).reply = frame n.identity.node errorText ∧
      (Dispatch.run f n t line).board = n :=
  reply_refused (congrArg (Request.refusal? f n) h) t

/-- A register is read under any spelling of its number. -/
lemma reads_spelled {text : String} {index : Nat} (hi : Spells text index)
    (h : index < Registers.count) (t : TestMode) :
    (Dispatch.run f n t ("ATS" ++ text ++ "?")).reply =
      frame n.identity.node (toString (n.registers.get index)) :=
  reply_told (Request.parse_readRegister hi (Nat.lt_trans h (by decide))) (if_pos h) rfl t

lemma reads_register {index : Nat} (h : index < Registers.count) (t : TestMode) :
    (Dispatch.run f n t ("ATS" ++ toString index ++ "?")).reply =
      frame n.identity.node (toString (n.registers.get index)) :=
  reads_spelled (spells_toString index) h t

/-- Unless the words of the configuration are asked for, each line of a reply is read back as the
node and the text on it: `ERROR` exactly for what is refused, data for what is asked for. -/
theorem reply_reads_back (f : Features) (n : Node) (t : TestMode) (line : String)
    (hline : ∀ query, Request.parse line = .here (.ok (.info query)) → ¬query.Worded) :
    let o := Dispatch.run f n t line
    let node := n.identity.node
    ∃ texts : List String, o.reply = frames node texts ∧
      (∀ text ∈ texts, Unbroken text ∧
        Reply.parse (frame node text) = some ⟨node, .ofText text⟩ ∧
        Reply.parse (nodeTag node ++ text) = some ⟨node, .ofText text⟩) ∧
      (okText ∈ texts → texts = [okText]) ∧
      (errorText ∈ texts → texts = [errorText]) ∧
      (errorText ∈ texts ↔ ∃ r, (Request.parse line).refusal? f n = some r) ∧
      (errorText ∈ texts ↔ o.journal.total .errors ≠ 0) ∧
      (∀ command count, Request.parse line = .here (.ok command) → command.refusal? f n = none →
        command.dataLines? n = some count →
          texts.length = count ∧ ∀ text ∈ texts, ReplyBody.ofText text = .data text) ∧
      (Request.parse line = .here (.ok (.info .parameters)) →
        ∀ (index : Nat) (info : RegisterInfo), registerTable[index]? = some info → ∃ value,
          texts[index]? = some ("S" ++ toString index ++ ":" ++ info.name ++ "=" ++ value) ∧
          ∀ later, (Dispatch.run f n later ("ATS" ++ toString index ++ "?")).reply =
            frame node value) := by
  intro o node
  set texts := (Request.parse line).texts f n with htexts
  have hunbroken : ∀ text ∈ texts, Unbroken text :=
    Request.texts_unbroken fun query hquery hworded => absurd hworded (hline query hquery)
  obtain ⟨hok, herror, hrefused⟩ := Request.texts_verdict (f := f) (n := n) hline
  refine ⟨texts, run_reply f n t line, fun text h => ?_, hok, herror, hrefused, ?_, ?_, ?_⟩
  · exact ⟨hunbroken text h, Reply.parse_frame _ (hunbroken text h),
      Reply.parse_line _ (hunbroken text h)⟩
  · rw [hrefused, (run_answered f n t line).errors, ← Option.isSome_iff_exists]
    cases ((Request.parse line).refusal? f n).isSome <;> simp
  · intro command count hparse htaken hdata
    rw [htexts, hparse, Request.texts_taken htaken]
    have hplain : ∀ query, command = .info query → ¬query.Worded :=
      fun query hc => hline query (hc ▸ hparse)
    exact ⟨Command.texts_length hdata, fun text h => (Command.texts_datum hplain hdata text h).body⟩
  · intro hparse index info hinfo
    refine ⟨toString (n.registers.get index), ?_, fun later => ?_⟩
    · rw [htexts, hparse, Request.texts_taken rfl]
      exact n.registers.texts_getElem? hinfo
    · exact reads_register (List.getElem?_eq_some_iff.mp hinfo).1 later

/-- A node with another network number than the factory's. -/
def retuned : Except SetupError Node := do
  let n ← ofConfiguration .standard
  return (Dispatch.run ⟨false, false⟩ n .clear "ATS3=7").board

theorem reply_reads_back_retuned : ∃ n, retuned = .ok n ∧ n.identity.node = 0 ∧
    (∀ query, Request.parse "ATI5" = .here (.ok (.info query)) → ¬query.Worded) ∧
    ∃ texts : List String, (Dispatch.run ⟨false, false⟩ n .clear "ATI5").reply = frames 0 texts ∧
      texts.length = 19 ∧ texts[3]? = some "S3:NETID=7" := by
  have hparse : Request.parse "ATI5" = .here (.ok (.info .parameters)) := rfl
  have hquery : ∀ query, Request.parse "ATI5" = .here (.ok (.info query)) → ¬query.Worded := by
    intro query h
    cases hparse.symm.trans h
    simp [Query.Worded]
  obtain ⟨n, hn, hnode, hseven⟩ :
      ∃ n, retuned = .ok n ∧ n.identity.node = 0 ∧ n.registers.get 3 = 7 :=
    ⟨_, rfl, by decide +kernel, by decide +kernel⟩
  obtain ⟨texts, hreply, -, -, -, -, -, hdata, hregisters⟩ :=
    reply_reads_back ⟨false, false⟩ n .clear "ATI5" hquery
  obtain ⟨value, htext, hvalue⟩ := hregisters hparse 3 ⟨"NETID", 25, 0, 499⟩ rfl
  have hindex : 3 < Registers.count := by decide
  have hshown := reads_register (n := n) (f := ⟨false, false⟩) hindex .clear
  obtain rfl : value = toString 7 := by
    rw [← hseven]
    exact frame_inj ((hvalue .clear).symm.trans hshown)
  rw [hnode] at hreply
  exact ⟨n, hn, hnode, hquery, texts, hreply, (hdata _ _ hparse rfl rfl).1,
    htext.trans (by decide +kernel)⟩

end Node

end RadioModem
