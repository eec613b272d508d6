import RadioModem.Proofs.Replies
import RadioModem.Proofs.Stops

/-!
# The serial stream

Echoed input and replies share one stream, and nothing keeps a reply from starting behind input that
has not been ended. Here the stream is cut into its lines, each with the input that stands on it and
the framed text behind it, and the lines are given to the reader of replies.
-/
namespace RadioModem

/-! ### Complete lines -/

/-- The lines of a stream that have been ended. -/
def completeLines (stream : String) : List String :=
  ((stream.toList.splitOn '\n').dropLast).map String.ofList

/-- The replies that are found in a stream. -/
def recovered (stream : String) : List Reply := (completeLines stream).filterMap Reply.parse

lemma completeLines_end {pending : String} (h : '\n' ∉ pending.toList) :
    completeLines pending = [] := by
  rw [completeLines, List.splitOn_eq_singleton h]
  rfl

lemma completeLines_line {line : String} (h : '\n' ∉ line.toList) (rest : String) :
    completeLines (line ++ "\n" ++ rest) = line :: completeLines rest := by
  have hsplit : (line ++ "\n" ++ rest).toList.splitOn '\n' =
      line.toList :: rest.toList.splitOn '\n' := by
    rw [String.toList_append, String.toList_append, List.append_assoc]
    exact List.splitOn_append_cons_self_of_not_mem h _
  have hrest : rest.toList.splitOn '\n' ≠ [] := List.splitOn_ne_nil _ _
  rw [completeLines, hsplit, List.dropLast_cons_of_ne_nil hrest, List.map_cons,
    String.ofList_toList]
  rfl

/-- Lines that are ended each, and what stands behind them. -/
lemma completeLines_join {lines : List String} {pending : String}
    (hlines : ∀ line ∈ lines, '\n' ∉ line.toList) (hpending : '\n' ∉ pending.toList) :
    completeLines (String.join (lines.map (· ++ "\n")) ++ pending) = lines := by
  induction lines with
  | nil => simpa using completeLines_end hpending
  | cons line lines ih =>
    obtain ⟨hline, hlines⟩ := List.forall_mem_cons.mp hlines
    rw [List.map_cons, String.join_cons, String.append_assoc, completeLines_line hline, ih hlines]

section
variable {node : Address}

lemma newline_notMem_of_unbroken {text : String} (h : Unbroken text) : '\n' ∉ text.toList :=
  fun hmem => absurd (h _ hmem) (by decide)

lemma newline_notMem_tagged {text : String} (h : Unbroken text) :
    '\n' ∉ (nodeTag node ++ text).toList :=
  newline_notMem_of_unbroken (unbroken_append.mpr ⟨unbroken_nodeTag node, h⟩)

/-- Texts that stay on their lines are told from the lines. -/
lemma completeLines_frames {texts : List String} (h : ∀ text ∈ texts, Unbroken text) :
    completeLines (frames node texts) = texts.map (nodeTag node ++ ·) := by
  have hlines : ∀ line ∈ texts.map (nodeTag node ++ ·), '\n' ∉ line.toList := by
    intro line hline
    obtain ⟨text, htext, rfl⟩ := List.mem_map.mp hline
    exact newline_notMem_tagged (h text htext)
  have hempty : '\n' ∉ ("" : String).toList := by simp
  have hjoin := completeLines_join hlines hempty
  rwa [List.map_map, String.append_empty] at hjoin

lemma frames_inj {a b : List String} (ha : ∀ text ∈ a, Unbroken text)
    (hb : ∀ text ∈ b, Unbroken text) (h : frames node a = frames node b) : a = b := by
  have hlines := congrArg completeLines h
  rw [completeLines_frames ha, completeLines_frames hb] at hlines
  refine List.map_injective_iff.mpr (fun s t hst => ?_) hlines
  simpa using hst

end

/-! ### Lines with their input -/

/-- A line of the stream: the input that was echoed onto it, and the framed text that ended it, if
it was not ended by the operator. -/
structure StreamLine where
  echoed : String
  framed : Option String
  deriving DecidableEq, Repr

def StreamLine.text (node : Address) (l : StreamLine) : String :=
  l.echoed ++ (l.framed.elim "" fun text => nodeTag node ++ text)

namespace StreamLine
variable {node : Address} {l : StreamLine}

/-- A framed text is found exactly if there is no input in front of it. -/
lemma parse_framed_iff {text : String} (htext : Unbroken text) (hframed : l.framed = some text) :
    Reply.parse (l.text node) = some ⟨node, .ofText text⟩ ↔ l.echoed = "" := by
  rw [StreamLine.text, hframed]
  exact Reply.parse_behind_iff node htext l.echoed

/-- Nothing but the framed text is found on a line without input in front of it, nor on a line of
the operator's that does not read like a reply. -/
lemma parse_clear (htext : ∀ text, l.framed = some text → Unbroken text)
    (hclear : if l.framed.isSome then l.echoed = "" else Reply.parse l.echoed = none) :
    Reply.parse (l.text node) = l.framed.map fun text => ⟨node, .ofText text⟩ := by
  cases hframed : l.framed with
  | none =>
    rw [hframed] at hclear
    rw [StreamLine.text, hframed]
    simpa using hclear
  | some text =>
    rw [hframed] at hclear
    exact (parse_framed_iff (htext text hframed) hframed).mpr (by simpa using hclear)

end StreamLine

/-- Lines that have been ended, and the input behind them that has not. -/
structure Layout where
  lines : List StreamLine
  pending : String
  deriving DecidableEq, Repr

namespace Layout

/-- One layout behind the lines of another. -/
def behind (a b : Layout) : Layout := ⟨a.lines ++ b.lines, b.pending⟩

/-- Only the end of a line is echoed as a line break; other echoes stay on the line. -/
def ofEcho (pending echo : String) : Layout :=
  if echo = "\n" then ⟨[⟨pending, none⟩], ""⟩ else ⟨[], pending ++ echo⟩

/-- The first text ends the line that is pending, the others have lines of their own. -/
def ofTexts (pending : String) : List String → Layout
  | [] => ⟨[], pending⟩
  | text :: texts => ⟨⟨pending, some text⟩ :: texts.map fun text => ⟨"", some text⟩, ""⟩

/-- A layout is what was written behind the pending input, with the framed texts in their order, and
there is no line break in it but the ends of its lines. -/
structure Lays (node : Address) (pending written : String) (texts : List String) (l : Layout) :
    Prop where
  written_eq : pending ++ written =
    String.join ((l.lines.map (StreamLine.text node)).map (· ++ "\n")) ++ l.pending
  framed_eq : l.lines.filterMap StreamLine.framed = texts
  lines_whole : ∀ line ∈ l.lines, '\n' ∉ (line.text node).toList
  pending_whole : '\n' ∉ l.pending.toList

variable {node : Address} {pending written : String} {texts : List String} {l : Layout}

lemma Lays.completeLines_eq (h : Lays node "" written texts l) :
    completeLines written = l.lines.map (StreamLine.text node) := by
  have hwritten := h.written_eq
  rw [String.empty_append] at hwritten
  rw [hwritten]
  exact completeLines_join (List.forall_mem_map.mpr h.lines_whole) h.pending_whole

lemma Lays.framed_mem (h : Lays node pending written texts l) {line : StreamLine}
    (hline : line ∈ l.lines) {text : String} (hframed : line.framed = some text) :
    text ∈ texts := by
  rw [← h.framed_eq]
  exact List.mem_filterMap.mpr ⟨line, hline, hframed⟩

lemma Lays.behind {w w' : String} {texts texts' : List String} {a b : Layout}
    (ha : Lays node pending w texts a) (hb : Lays node a.pending w' texts' b) :
    Lays node pending (w ++ w') (texts ++ texts') (a.behind b) where
  written_eq := by
    rw [← String.append_assoc, ha.written_eq, String.append_assoc, hb.written_eq]
    simp [Layout.behind, String.append_assoc]
  framed_eq := by rw [Layout.behind, List.filterMap_append, ha.framed_eq, hb.framed_eq]
  lines_whole := List.forall_mem_append.mpr ⟨ha.lines_whole, hb.lines_whole⟩
  pending_whole := hb.pending_whole

lemma ofEcho_lays (hp : '\n' ∉ pending.toList) {echo : String}
    (he : echo = "\n" ∨ '\n' ∉ echo.toList) :
    Lays node pending echo [] (ofEcho pending echo) := by
  unfold ofEcho
  split
  · next h =>
    exact ⟨by simp [h, StreamLine.text], rfl, by simpa [StreamLine.text] using hp, by simp⟩
  · next h =>
    have hkept := he.resolve_left h
    exact ⟨by simp, rfl, by simp, by simp [hp, hkept]⟩

lemma ofTexts_lays (hp : '\n' ∉ pending.toList) {texts : List String}
    (ht : ∀ text ∈ texts, Unbroken text) :
    Lays node pending (frames node texts) texts (ofTexts pending texts) := by
  cases texts with
  | nil => exact ⟨by simp [ofTexts], rfl, by simp [ofTexts], hp⟩
  | cons text texts =>
    obtain ⟨htext, ht⟩ := List.forall_mem_cons.mp ht
    refine ⟨?_, ?_, ?_, by simp [ofTexts]⟩
    · have htail : ((texts.map fun text => (⟨"", some text⟩ : StreamLine)).map
          (StreamLine.text node)).map (· ++ "\n") = texts.map (frame node) := by
        rw [List.map_map, List.map_map]
        exact List.map_congr_left fun text _ => by simp [StreamLine.text, frame_eq]
      simp only [ofTexts, List.map_cons, htail]
      simp [frames, frame_eq, StreamLine.text, String.append_assoc]
    · have htail : (texts.map fun text => (⟨"", some text⟩ : StreamLine)).filterMap
          StreamLine.framed = texts := by
        rw [List.filterMap_map]
        exact List.filterMap_some
      simp [ofTexts, htail]
    · refine List.forall_mem_cons.mpr ⟨?_, ?_⟩
      · rw [StreamLine.text, String.toList_append, List.mem_append]
        exact not_or.mpr ⟨hp, newline_notMem_tagged htext⟩
      · simp only [List.forall_mem_map]
        intro text hmem
        rw [StreamLine.text, String.empty_append]
        exact newline_notMem_tagged (ht text hmem)

end Layout

/-! ### What a moment writes -/

lemma LineBuffer.key_echo (l : LineBuffer) (byte : UInt8) :
    (l.key byte).echo = "\n" ∨ '\n' ∉ (l.key byte).echo.toList := by
  have hstruck := l.key_struck byte
  generalize l.key byte = k at hstruck
  cases hstruck with
  | ended => exact .inl rfl
  | passed | overflowed => exact .inr (by simp)
  | erased =>
    have hrub : '\n' ∉ rubOut.toList := by decide
    cases he : l.isEmpty <;> simp [LineBuffer.erase, he, hrub]
  | added hp =>
    have hprinted : ∀ b : UInt8, 0x20 ≤ b ∧ b ≤ 0x7E →
        '\n' ∉ (String.singleton (charOfByte (upperByte b))).toList :=
      fun b => forall_byte (P := fun b => 0x20 ≤ b ∧ b ≤ 0x7E →
        '\n' ∉ (String.singleton (charOfByte (upperByte b))).toList) (by decide +kernel) b
    exact .inr (hprinted byte hp)

lemma Moment.echo_line (x : Moment) : x.echo = "\n" ∨ '\n' ∉ x.echo.toList := by
  obtain ⟨s, signal⟩ := x
  cases signal with
  | tick => exact .inr (by simp [echo])
  | byte byte =>
    have hreceived := Modem.onByte_received s.modem byte
    have hecho : echo ⟨s, .byte byte⟩ = (s.modem.onByte byte).echo := rfl
    rw [hecho]
    generalize s.modem.onByte byte = step at hreceived ⊢
    cases hreceived with
    | data | waiting => exact .inr (by simp)
    | ended => exact .inl rfl
    | typed | overflowed => exact s.modem.line.key_echo byte

/-- The texts of the test reports of a session. -/
def Session.reportTexts (s : Session) : List String :=
  (if s.modem.tests.has .rssi then [s.node.link.signalText] else []) ++
    if s.modem.tests.has .tdm then s.node.link.timingTexts else []

lemma Session.testReports_eq (s : Session) :
    s.testReports = frames s.node.identity.node s.reportTexts := by
  have hsignal : Board.signalReport s.node (Board.node s.node) =
      frames s.node.identity.node [s.node.link.signalText] := (frames_singleton _ _).symm
  have htiming : Board.timingReport s.node (Board.node s.node) =
      frames s.node.identity.node s.node.link.timingTexts := s.node.link.timingReport_eq _
  rw [testReports, reportTexts, hsignal, htiming, frames_append]
  split <;> split <;> rfl

lemma Session.reportTexts_unbroken (s : Session) : ∀ text ∈ s.reportTexts, Unbroken text := by
  refine List.forall_mem_append.mpr ⟨?_, ?_⟩
  · split
    · exact List.forall_mem_singleton.mpr s.node.link.signalText_datum.unbroken
    · exact List.forall_mem_nil _
  · split
    · exact fun text h => (s.node.link.timingTexts_datum text h).unbroken
    · exact List.forall_mem_nil _

namespace Moment

/-- The texts of the reply to the line that is run. -/
def answers (x : Moment) : List String :=
  x.line?.elim [] fun line => (Request.parse line).texts x.stepped.modem.features x.stepped.board

/-- The texts of the reports that are due. -/
def reportTexts (x : Moment) : List String :=
  match x.signal, x.stop? with
  | .tick, none => if x.next.reportsDue then x.next.reportTexts else []
  | _, _ => []

def said (x : Moment) : List String := x.answers ++ x.reportTexts

variable {x : Moment}

lemma polled_reply (x : Moment) :
    x.polled.reply = frames x.session.node.identity.node x.answers := by
  have hpolled := Modem.poll_polled x.stepped.modem x.stepped.board
  rw [← x.stepped_identity]
  simp only [polled, answers, line?]
  generalize x.stepped.modem.poll x.stepped.board = p at hpolled ⊢
  cases hpolled with
  | idle hr => simp [hr]
  | stopped hr | stayed hr | left hr =>
    rw [if_pos hr]
    exact Node.run_reply _ _ _ _

lemma reports_eq (x : Moment) : x.reports = frames x.session.node.identity.node x.reportTexts := by
  rw [← x.next_identity, reports, reportTexts]
  cases x.signal with
  | byte byte => rfl
  | tick =>
    cases x.stop? with
    | some how => rfl
    | none =>
      dsimp only
      rw [Session.testReports_eq]
      split <;> rfl

/-- What a moment writes behind its echo is framed text by text. -/
lemma replied (x : Moment) :
    x.polled.reply ++ x.reports = frames x.session.node.identity.node x.said := by
  rw [x.polled_reply, x.reports_eq, said, frames_append]

lemma said_unbroken (hb : Unbroken x.session.node.identity.banner)
    (hv : Unbroken x.session.node.identity.version) : ∀ text ∈ x.said, Unbroken text := by
  refine List.forall_mem_append.mpr ⟨?_, ?_⟩
  · unfold answers
    cases x.line? with
    | none => exact List.forall_mem_nil _
    | some line =>
      refine Request.texts_unbroken ?_
      rintro query - (rfl | rfl)
      · rw [← x.stepped_identity] at hb
        exact List.forall_mem_singleton.mpr hb
      · rw [← x.stepped_identity] at hv
        exact List.forall_mem_singleton.mpr hv
  · unfold reportTexts
    split
    · split
      · exact Session.reportTexts_unbroken _
      · exact List.forall_mem_nil _
    · exact List.forall_mem_nil _

def layout (pending : String) (x : Moment) : Layout :=
  let echoed := Layout.ofEcho pending x.echo
  echoed.behind (.ofTexts echoed.pending x.said)

open Layout

lemma layout_lays {pending : String} (hp : '\n' ∉ pending.toList)
    (hsaid : ∀ text ∈ x.said, Unbroken text) :
    Lays x.session.node.identity.node pending x.text x.said (x.layout pending) := by
  have hecho : Lays x.session.node.identity.node pending x.echo [] (ofEcho pending x.echo) :=
    ofEcho_lays hp x.echo_line
  rw [text, String.append_assoc, x.replied]
  exact hecho.behind (ofTexts_lays hecho.pending_whole hsaid)

end Moment

/-- The lines of what a run of moments writes behind some pending input. -/
def layout (pending : String) : List Moment → Layout
  | [] => ⟨[], pending⟩
  | x :: xs => (x.layout pending).behind (layout (x.layout pending).pending xs)

theorem layout_lays {node : Address} {xs : List Moment} {pending : String}
    (hp : '\n' ∉ pending.toList) (hnode : ∀ x ∈ xs, x.session.node.identity.node = node)
    (hsaid : ∀ x ∈ xs, ∀ text ∈ x.said, Unbroken text) :
    Layout.Lays node pending (String.join (xs.map Moment.text)) (xs.flatMap Moment.said)
      (layout pending xs) := by
  induction xs generalizing pending with
  | nil => exact ⟨by simp [layout], rfl, by simp [layout], hp⟩
  | cons x xs ih =>
    obtain ⟨hx, hnode⟩ := List.forall_mem_cons.mp hnode
    obtain ⟨hsaidx, hsaid⟩ := List.forall_mem_cons.mp hsaid
    have hhead := x.layout_lays hp hsaidx
    rw [hx] at hhead
    rw [List.map_cons, String.join_cons, List.flatMap_cons]
    exact hhead.behind (ih hhead.pending_whole hnode hsaid)

/-! ### Replies to typed lines -/

namespace Moment
variable {x : Moment}

/-- A line is left waiting only by a command that stopped the board. -/
def Waits (s : Session) : Prop := s.modem.ready = true → (Request.parse s.modem.text).Stops

lemma waits_next (x : Moment) : Waits x.next := by
  cases hstop : x.stop? with
  | none => exact fun hr => by cases (next_not_ready hstop).symm.trans hr
  | some how =>
    have hheard : x.next.modem.Heard [] := heard_of_stop hstop
    exact hheard.waits

lemma texts_of_stops {f : Features} {n : Node} {r : Request} (h : r.Stops) : r.texts f n = [] := by
  rcases h with rfl | rfl
  · rfl
  · rfl

lemma answers_of_waits {s : Session} (h : Waits s) (signal : Signal)
    (hready : (stepped ⟨s, signal⟩).modem.ready = s.modem.ready)
    (htext : s.modem.ready = true → (stepped ⟨s, signal⟩).modem.text = s.modem.text) :
    answers ⟨s, signal⟩ = [] := by
  rw [answers, line?, hready]
  cases hr : s.modem.ready with
  | false => rfl
  | true =>
    rw [htext hr]
    exact texts_of_stops (h hr)

/-- A byte is answered only if it ends its line, and then behind the line break. -/
lemma byte_said {s : Session} (h : Waits s) (byte : UInt8) :
    said ⟨s, .byte byte⟩ = [] ∨ echo ⟨s, .byte byte⟩ = "\n" := by
  have hsaid : said ⟨s, .byte byte⟩ = answers ⟨s, .byte byte⟩ := List.append_nil _
  have hmodem : (stepped ⟨s, .byte byte⟩).modem = (s.modem.onByte byte).modem := rfl
  have hecho : echo ⟨s, .byte byte⟩ = (s.modem.onByte byte).echo := rfl
  have hwaits := answers_of_waits h (.byte byte)
  rw [hsaid, hecho]
  rw [hmodem] at hwaits
  have hreceived := Modem.onByte_received s.modem byte
  generalize s.modem.onByte byte = step at hreceived hwaits ⊢
  cases hreceived with
  | data | waiting => exact .inl (hwaits rfl fun _ => rfl)
  | ended => exact .inr rfl
  | typed hc hr | overflowed hc hr =>
    exact .inl (hwaits rfl fun hready => by cases hr.symm.trans hready)

end Moment

lemma Trace.left_waiting {s s' : Session} {xs : List Moment} (h : Trace s xs s')
    (hs : Moment.Waits s) : ∀ x ∈ xs, Moment.Waits x.session :=
  (Trace.keeps (fun x _ => x.waits_next) (fun _ hs => hs) h hs).2

/-! ### The stream of a run -/

/-- What a turn sends over the serial line; a crash sends nothing. -/
def Turn.reply (t : Turn) : String :=
  match t.output with
  | .ok o => o.reply
  | .error _ => ""

namespace Session
variable {s : Session} {c : Configuration}

def stream (s : Session) (es : List SessionEvent) : String :=
  String.join ((s.turns es).map Turn.reply)

lemma turns_return (hn : s.node.onHalt = .report) (es : List SessionEvent) :
    ∀ t ∈ s.turns es, ∃ o, t.output = .ok o := by
  induction es generalizing s with
  | nil => exact List.forall_mem_nil _
  | cons e es ih =>
    have hnext := (turn_trace s e).node.1.2
    exact List.forall_mem_cons.mpr ⟨turn_returns hn e, ih (hnext.trans hn)⟩

lemma stream_eq (hn : s.node.onHalt = .report) (es : List SessionEvent) :
    s.stream es = String.join ((s.history es).map Moment.text) := by
  induction es generalizing s with
  | nil => rfl
  | cons e es ih =>
    obtain ⟨o, ho⟩ := turn_returns hn e
    have hnext := (turn_trace s e).node.1.2
    have hreply : (s.turn e).reply = String.join ((s.moments e).map Moment.text) := by
      rw [Turn.reply, ho]
      exact (turn_text ho).1
    have hrest : (s.turn e).session.stream es = _ := ih (hnext.trans hn)
    rw [stream, turns, List.map_cons, String.join_cons, hreply, ← stream, hrest, history,
      List.map_append, String.join_append]

/-- A framed text is found in the stream exactly if there is no input in front of it on its line. So
all of them are found, and nothing else, if that holds for each and no line that the operator ended
reads like a reply. -/
theorem replies_recovered (h : ofConfiguration c = .ok s) (hb : Unbroken c.identity.banner)
    (hv : Unbroken c.identity.version) (es : List SessionEvent) :
    let node := c.identity.node
    let xs := s.history es
    let lines := (layout "" xs).lines
    (∀ t ∈ s.turns es, ∃ o, t.output = .ok o) ∧
    (∀ x ∈ xs, x.polled.reply ++ x.reports = frames node x.said) ∧
    completeLines (s.stream es) = lines.map (StreamLine.text node) ∧
    lines.filterMap StreamLine.framed = xs.flatMap Moment.said ∧
    (∀ x ∈ xs, ∀ byte, x.signal = .byte byte → x.said = [] ∨ x.echo = "\n") ∧
    (∀ l ∈ lines, ∀ text, l.framed = some text →
      (Reply.parse (l.text node) = some ⟨node, .ofText text⟩ ↔ l.echoed = "")) ∧
    ((∀ l ∈ lines, if l.framed.isSome then l.echoed = "" else Reply.parse l.echoed = none) →
      recovered (s.stream es) = (xs.flatMap Moment.said).map fun text => ⟨node, .ofText text⟩) := by
  intro node xs lines
  obtain ⟨n, hn, rfl⟩ := ofConfiguration_ok h
  have hfresh := Node.fresh_ofConfiguration hn
  have htrace := history_trace (ofParts (.ofSettings c.modem) n) es
  have hidentity : ∀ x ∈ xs, x.session.node.identity = c.identity :=
    fun x hx => ((htrace.node.2 x hx).1).trans hfresh.identity
  have hsaid : ∀ x ∈ xs, ∀ text ∈ x.said, Unbroken text := fun x hx =>
    x.said_unbroken (by rwa [hidentity x hx]) (by rwa [hidentity x hx])
  have hlays : Layout.Lays node "" ((ofParts (.ofSettings c.modem) n).stream es)
      (xs.flatMap Moment.said) (layout "" xs) := by
    rw [stream_eq hfresh.onHalt]
    exact layout_lays (by simp) (fun x hx => by rw [hidentity x hx]) hsaid
  have hunbroken : ∀ l ∈ lines, ∀ text, l.framed = some text → Unbroken text := by
    intro l hl text hframed
    obtain ⟨x, hx, htext⟩ := List.mem_flatMap.mp (hlays.framed_mem hl hframed)
    exact hsaid x hx text htext
  refine ⟨turns_return hfresh.onHalt es, fun x hx => ?_, hlays.completeLines_eq, hlays.framed_eq,
    ?_, fun l hl text hframed => ?_, fun hclear => ?_⟩
  · rw [x.replied, hidentity x hx]
  · rintro ⟨s, signal⟩ hx byte rfl
    have hidle : Moment.Waits (ofParts (.ofSettings c.modem) n) := fun hready => by cases hready
    exact Moment.byte_said (htrace.left_waiting hidle _ hx) byte
  · exact StreamLine.parse_framed_iff (hunbroken l hl text hframed) hframed
  · rw [recovered, hlays.completeLines_eq, List.filterMap_map, ← hlays.framed_eq,
      List.map_filterMap]
    exact List.filterMap_congr fun l hl => StreamLine.parse_clear (hunbroken l hl) (hclear l hl)

/-- An escape and a question that is asked in two pieces, with reports in the meantime. -/
def asking : List SessionEvent :=
  [.tick, .serial "+++".toUTF8.toList, .tick, .serial "ATS".toUTF8.toList,
    .serial "3?\r".toUTF8.toList]

theorem replies_recovered_asking : ∃ s, ofConfiguration alert = .ok s ∧
    Unbroken alert.identity.banner ∧ Unbroken alert.identity.version ∧
    recovered (s.stream asking) = [⟨0, .ok⟩, ⟨0, .data "25"⟩] := by
  have hbanner : Unbroken alert.identity.banner := by decide
  have hversion : Unbroken alert.identity.version := by decide
  obtain ⟨-, -, -, -, -, -, hfound⟩ :=
    replies_recovered (c := alert) rfl hbanner hversion asking
  refine ⟨_, rfl, hbanner, hversion, (hfound ?_).trans ?_⟩
  · decide +kernel
  · decide +kernel

/-- A line that reads like a reply, and an escape behind a line that has not been ended. -/
def misleading : List SessionEvent :=
  [.tick, .serial "+++".toUTF8.toList, .tick, .serial "[7] HI\rAT".toUTF8.toList, .tick,
    .serial "+++".toUTF8.toList, .tick]

/-- Of two replies one is found, and one that was never given. -/
theorem replies_mistaken : ¬∀ (c : Configuration) (s : Session) (es : List SessionEvent),
    c.validated = .ok c → ofConfiguration c = .ok s →
      (∀ words ∈ [c.identity.banner, c.identity.version],
        Unbroken words ∧ words ≠ okText ∧ words ≠ errorText) →
      recovered (s.stream es) =
        ((s.history es).flatMap Moment.said).map fun text => ⟨c.identity.node, .ofText text⟩ := by
  intro h
  exact absurd (h alert _ misleading rfl rfl (by decide)) (by decide +kernel)

end Session

end RadioModem
