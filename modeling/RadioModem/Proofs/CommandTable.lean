import RadioModem.Proofs.Dispatch
import RadioModem.Proofs.RemoteLines

/-!
# The table of commands

The lines that the commands are documented by, as patterns, and the lines that the reader takes for
them. It follows the patterns loosely: a number without a digit is zero, any character may stand for
a comma, and text behind the arguments is not looked at. Only such lines are corrected; every other
line is read as the table has it or is an error.
-/
namespace RadioModem

/-- A place of an argument. -/
inductive Slot
  | char (c : Char)
  | comma
  | digit (d : Nat)
  | number (n : Nat)
  deriving DecidableEq, Repr

/-- The code of a command and the places of its arguments. Some commands take the line to its end
however it is read. -/
structure Pattern where
  code : List Char
  arguments : List Slot
  closed : Bool
  deriving DecidableEq, Repr

/-- How closely a line has to follow its pattern. -/
inductive Reading
  | exact
  | loose
  deriving DecidableEq, Repr

/-- What may stand at a place, in front of the tail of a text. -/
def Slot.Takes (reading : Reading) (text tail : List Char) : Slot → Prop
  | char c => text = c :: tail
  | comma => ∃ c, c.utf8Size = 1 ∧ text = c :: tail ∧ (reading = .exact → c = ',')
  | digit d => d < 10 ∧ text = Nat.digitChar d :: tail
  | number n => ∃ run, text = run ++ tail ∧ Numeral run tail n ∧ (reading = .exact → run ≠ [])

/-- A text fills places one after the other, up to its rest. -/
def Fills (reading : Reading) : List Slot → List Char → List Char → Prop
  | [], text, rest => text = rest
  | slot :: slots, text, rest =>
    ∃ tail, slot.Takes reading text tail ∧ Fills reading slots tail rest

def Pattern.Matches (p : Pattern) (reading : Reading) (text : List Char) : Prop :=
  ∃ tail rest, text = p.code ++ tail ∧ Fills reading p.arguments tail rest ∧
    (reading = .exact ∨ p.closed = true → rest = [])

/-- What is amiss at a place: another character for the comma, or a number without a digit. -/
def Slot.Lapses (text tail : List Char) : Slot → Prop
  | comma => text.head? ≠ some ','
  | number _ => text = tail
  | char _ | digit _ => False

/-- Something is amiss at one of the places that a text fills. -/
def Lapses : List Slot → List Char → Prop
  | [], _ => False
  | slot :: slots, text =>
    ∃ tail, slot.Takes .loose text tail ∧ (slot.Lapses text tail ∨ Lapses slots tail)

/-- A text matches a pattern with something amiss at a place, or with text behind the last one. -/
def Pattern.Strays (p : Pattern) (text : List Char) : Prop :=
  ∃ tail rest, text = p.code ++ tail ∧ Fills .loose p.arguments tail rest ∧
    (p.closed = true → rest = []) ∧ (Lapses p.arguments tail ∨ rest ≠ [])

/-! ### Exact and loose matches -/

section
variable {slot : Slot} {slots : List Slot} {p : Pattern} {reading other : Reading}
  {run text tail tail' rest rest' : List Char} {n : Nat}

lemma takes_number (h : Numeral run tail n) : Slot.Takes .loose (run ++ tail) tail (.number n) :=
  ⟨run, rfl, h, by simp⟩

/-- A place can be filled in one way only: a number takes all the digits there are. -/
lemma takes_inj (h : slot.Takes reading text tail) (h' : slot.Takes other text tail') :
    tail = tail' := by
  cases slot with
  | char c => exact List.tail_eq_of_cons_eq (h.symm.trans h')
  | comma =>
    obtain ⟨c, -, rfl, -⟩ := h
    obtain ⟨c', -, htext, -⟩ := h'
    exact List.tail_eq_of_cons_eq htext
  | digit d => exact List.tail_eq_of_cons_eq (h.2.symm.trans h'.2)
  | number n =>
    obtain ⟨run, rfl, hrun, -⟩ := h
    obtain ⟨run', htext, hrun', -⟩ := h'
    have hread := hrun.number_eq
    rw [htext, hrun'.number_eq] at hread
    exact (Prod.mk.inj (Except.ok.inj hread)).2.symm

lemma takes_exact_iff : slot.Takes .exact text tail ↔
    slot.Takes .loose text tail ∧ ¬slot.Lapses text tail := by
  cases slot with
  | char c | digit d => exact (and_iff_left not_false).symm
  | comma =>
    constructor
    · rintro ⟨c, hsize, rfl, hcomma⟩
      exact ⟨⟨c, hsize, rfl, by simp⟩, not_not_intro (congrArg some (hcomma rfl))⟩
    · rintro ⟨⟨c, hsize, rfl, -⟩, hcomma⟩
      exact ⟨c, hsize, rfl, fun _ => Option.some.inj (not_not.mp hcomma)⟩
  | number n =>
    constructor
    · rintro ⟨run, rfl, hrun, hsome⟩
      exact ⟨takes_number hrun, fun hnone => hsome rfl (List.append_left_eq_self.mp hnone)⟩
    · rintro ⟨⟨run, rfl, hrun, -⟩, hsome⟩
      exact ⟨run, rfl, hrun, fun _ hnone => hsome (List.append_left_eq_self.mpr hnone)⟩

lemma fills_inj (h : Fills reading slots text rest) (h' : Fills other slots text rest') :
    rest = rest' := by
  induction slots generalizing text with
  | nil => exact h.symm.trans h'
  | cons slot slots ih =>
    obtain ⟨tail, htakes, hfills⟩ := h
    obtain ⟨tail', htakes', hfills'⟩ := h'
    obtain rfl := takes_inj htakes htakes'
    exact ih hfills hfills'

lemma fills_exact_iff : Fills .exact slots text rest ↔
    Fills .loose slots text rest ∧ ¬Lapses slots text := by
  induction slots generalizing text with
  | nil => exact (and_iff_left not_false).symm
  | cons slot slots ih =>
    constructor
    · rintro ⟨tail, htakes, hfills⟩
      obtain ⟨hloose, hplace⟩ := takes_exact_iff.mp htakes
      obtain ⟨hrest, hothers⟩ := ih.mp hfills
      refine ⟨⟨tail, hloose, hrest⟩, ?_⟩
      rintro ⟨tail', htakes', hlapse⟩
      obtain rfl := takes_inj hloose htakes'
      exact hlapse.elim hplace hothers
    · rintro ⟨⟨tail, hloose, hrest⟩, hnone⟩
      exact ⟨tail, takes_exact_iff.mpr ⟨hloose, fun h => hnone ⟨tail, hloose, .inl h⟩⟩,
        ih.mpr ⟨hrest, fun h => hnone ⟨tail, hloose, .inr h⟩⟩⟩

lemma matches_exact_iff : p.Matches .exact text ↔ p.Matches .loose text ∧ ¬p.Strays text := by
  constructor
  · rintro ⟨tail, rest, rfl, hfills, hrest⟩
    obtain rfl := hrest (.inl rfl)
    obtain ⟨hloose, hnone⟩ := fills_exact_iff.mp hfills
    refine ⟨⟨tail, [], rfl, hloose, fun _ => rfl⟩, ?_⟩
    rintro ⟨tail', rest', htext, hfills', -, hamiss⟩
    obtain rfl := List.append_cancel_left htext
    exact hamiss.elim hnone fun hsome => hsome (fills_inj hfills' hloose)
  · rintro ⟨⟨tail, rest, rfl, hloose, hclosed⟩, hnone⟩
    have hend : rest = [] := by
      by_contra hsome
      exact hnone ⟨tail, rest, rfl, hloose, fun h => hclosed (.inr h), .inr hsome⟩
    have hplaces : ¬Lapses p.arguments tail := fun h =>
      hnone ⟨tail, rest, rfl, hloose, fun _ => hend, .inl h⟩
    exact ⟨tail, rest, rfl, fills_exact_iff.mpr ⟨hloose, hplaces⟩, fun _ => hend⟩

lemma Pattern.Strays.loose (h : p.Strays text) : p.Matches .loose text := by
  obtain ⟨tail, rest, htext, hfills, hclosed, -⟩ := h
  exact ⟨tail, rest, htext, hfills, fun h => hclosed (h.resolve_left nofun)⟩

end

namespace Command

/-- The patterns of a command after the attention code. -/
def patterns : Command → List Pattern
  | attention => [⟨[], [], true⟩]
  | factoryReset => [⟨['&', 'F'], [], false⟩]
  | save => [⟨['&', 'W'], [], false⟩]
  | forceUpdate => [⟨['&', 'U', 'P', 'D', 'A', 'T', 'E'], [], true⟩]
  | testMode .clearAll => [⟨['&', 'T'], [], true⟩]
  | testMode (.toggle .rssi) => [⟨['&', 'T', '=', 'R', 'S', 'S', 'I'], [], true⟩]
  | testMode (.toggle .tdm) => [⟨['&', 'T', '=', 'T', 'D', 'M'], [], true⟩]
  | extended (.power pwm) => [⟨['+', 'P', '='], [.number pwm], false⟩]
  | extended (.readChannel channel) => [⟨['+', 'C'], [.number channel, .char '?'], false⟩]
  | extended (.writeChannel channel value) =>
    [⟨['+', 'C'], [.number channel, .char '=', .number value], false⟩]
  | extended .lockCalibration => [⟨['+', 'L'], [], false⟩]
  | info .banner => [⟨['I'], [], true⟩, ⟨['I', '0'], [], false⟩]
  | info query => [⟨['I', query.selector], [], false⟩]
  | pinList => [⟨['P', 'P'], [], false⟩]
  | pin index .output => [⟨['P', 'O', '='], [.digit index], false⟩]
  | pin index .input => [⟨['P', 'I', '='], [.digit index], false⟩]
  | pin index .read => [⟨['P', 'R', '='], [.digit index], false⟩]
  | pin index (.write level) => [⟨['P', 'C', '='], [.digit index, .comma, .digit level], false⟩]
  | readRegister index => [⟨['S'], [.number index, .char '?'], false⟩]
  | writeRegister index value => [⟨['S'], [.number index, .char '=', .number value], false⟩]
  | online => [⟨['O'], [], false⟩]
  | reset => [⟨['Z'], [], false⟩]

/-- A line follows one of the patterns of a command. -/
def Follows (reading : Reading) (text : List Char) (c : Command) : Prop :=
  ∃ p ∈ c.patterns, p.Matches reading text

variable {c : Command} {text : List Char}

/-! ### What is read follows a pattern -/

lemma follows_of_spelling (h : Spelling text c) : Follows .loose text c := by
  cases h with
  | attention | forceUpdate | clearTests | toggleRssi | toggleTdm =>
    exact ⟨_, List.mem_singleton_self _, [], [], rfl, rfl, fun _ => rfl⟩
  | shortBanner => exact ⟨_, List.mem_cons_self, [], [], rfl, rfl, fun _ => rfl⟩
  | factoryReset | save | lockCalibration | pinList | online | reset =>
    exact ⟨_, List.mem_singleton_self _, _, _, rfl, rfl, by simp⟩
  | info query rest =>
    cases query with
    | banner =>
      exact ⟨_, List.mem_cons_of_mem _ (List.mem_singleton_self _), _, _, rfl, rfl, by simp⟩
    | version | boardId | frequency | bootloader | parameters | timing | signal | sync =>
      exact ⟨_, List.mem_singleton_self _, _, _, rfl, rfl, by simp⟩
  | power h =>
    exact ⟨_, List.mem_singleton_self _, _, _, rfl, ⟨_, takes_number h, rfl⟩, by simp⟩
  | readChannel h | readRegister h =>
    exact ⟨_, List.mem_singleton_self _, _, _, rfl, ⟨_, takes_number h, _, rfl, rfl⟩, by simp⟩
  | writeChannel hi hv | writeRegister hi hv =>
    exact ⟨_, List.mem_singleton_self _, _, _, rfl,
      ⟨_, takes_number hi, _, rfl, _, takes_number hv, rfl⟩, by simp⟩
  | pinOutput h | pinInput h | pinRead h =>
    exact ⟨_, List.mem_singleton_self _, _, _, rfl, ⟨_, ⟨h, rfl⟩, rfl⟩, by simp⟩
  | pinWrite hi hl hs =>
    exact ⟨_, List.mem_singleton_self _, _, _, rfl,
      ⟨_, ⟨hi, rfl⟩, _, ⟨_, hs, rfl, by simp⟩, _, ⟨hl, rfl⟩, rfl⟩, by simp⟩

/-! ### What follows a pattern is read -/

variable {reading : Reading}

/-- The one pattern of a command, followed up to a rest. -/
lemma follows_single {p : Pattern} (h : Follows reading text c) (hp : c.patterns = [p]) :
    ∃ tail rest, text = p.code ++ tail ∧ Fills reading p.arguments tail rest ∧
      (p.closed = true → rest = []) := by
  obtain ⟨q, hq, tail, rest, htext, hfills, hrest⟩ := h
  rw [hp, List.mem_singleton] at hq
  subst hq
  exact ⟨tail, rest, htext, hfills, fun h => hrest (.inr h)⟩

/-- A command without arguments whose pattern takes the line to its end. -/
lemma follows_closed {code : List Char} (h : Follows reading text c)
    (hp : c.patterns = [⟨code, [], true⟩]) : text = code := by
  obtain ⟨tail, rest, rfl, rfl, hend⟩ := follows_single h hp
  rw [hend rfl, List.append_nil]

lemma spelling_of_follows (h : Follows reading text c) : Spelling text c := by
  cases c with
  | attention =>
    obtain rfl := follows_closed h rfl
    exact .attention
  | factoryReset =>
    obtain ⟨tail, rest, rfl, rfl, -⟩ := follows_single h rfl
    exact .factoryReset _
  | save =>
    obtain ⟨tail, rest, rfl, rfl, -⟩ := follows_single h rfl
    exact .save _
  | forceUpdate =>
    obtain rfl := follows_closed h rfl
    exact .forceUpdate
  | testMode change =>
    cases change with
    | clearAll =>
      obtain rfl := follows_closed h rfl
      exact .clearTests
    | toggle flag =>
      cases flag with
      | rssi =>
        obtain rfl := follows_closed h rfl
        exact .toggleRssi
      | tdm =>
        obtain rfl := follows_closed h rfl
        exact .toggleTdm
  | extended request =>
    cases request with
    | power pwm =>
      obtain ⟨tail, rest, rfl, ⟨_, ⟨run, rfl, hpwm, -⟩, rfl⟩, -⟩ := follows_single h rfl
      exact @Spelling.power run _ pwm hpwm
    | readChannel channel =>
      obtain ⟨tail, rest, rfl, ⟨_, ⟨run, rfl, hchannel, -⟩, _, rfl, rfl⟩, -⟩ :=
        follows_single h rfl
      exact .readChannel hchannel
    | writeChannel channel value =>
      obtain ⟨tail, rest, rfl, ⟨_, ⟨run, rfl, hchannel, -⟩, _, rfl, _,
        ⟨argument, rfl, hvalue, -⟩, rfl⟩, -⟩ := follows_single h rfl
      exact .writeChannel hchannel hvalue
    | lockCalibration =>
      obtain ⟨tail, rest, rfl, rfl, -⟩ := follows_single h rfl
      exact .lockCalibration _
  | info query =>
    cases query with
    | banner =>
      obtain ⟨p, hp, tail, rest, rfl, hfills, hrest⟩ := h
      rcases List.mem_cons.mp hp with rfl | hp
      · obtain rfl := hrest (.inr rfl)
        obtain rfl := hfills
        exact .shortBanner
      · obtain rfl := List.mem_singleton.mp hp
        obtain rfl := hfills
        exact .info .banner _
    | version | boardId | frequency | bootloader | parameters | timing | signal | sync =>
      obtain ⟨tail, rest, rfl, rfl, -⟩ := follows_single h rfl
      exact .info _ _
  | pinList =>
    obtain ⟨tail, rest, rfl, rfl, -⟩ := follows_single h rfl
    exact .pinList _
  | pin index action =>
    cases action with
    | output =>
      obtain ⟨tail, rest, rfl, ⟨_, ⟨hindex, rfl⟩, rfl⟩, -⟩ := follows_single h rfl
      exact .pinOutput hindex _
    | input =>
      obtain ⟨tail, rest, rfl, ⟨_, ⟨hindex, rfl⟩, rfl⟩, -⟩ := follows_single h rfl
      exact .pinInput hindex _
    | read =>
      obtain ⟨tail, rest, rfl, ⟨_, ⟨hindex, rfl⟩, rfl⟩, -⟩ := follows_single h rfl
      exact .pinRead hindex _
    | write level =>
      obtain ⟨tail, rest, rfl, ⟨_, ⟨hindex, rfl⟩, _, ⟨separator, hsize, rfl, -⟩, _,
        ⟨hlevel, rfl⟩, rfl⟩, -⟩ := follows_single h rfl
      exact .pinWrite hindex hlevel hsize _
  | readRegister index =>
    obtain ⟨tail, rest, rfl, ⟨_, ⟨run, rfl, hindex, -⟩, _, rfl, rfl⟩, -⟩ := follows_single h rfl
    exact .readRegister hindex
  | writeRegister index value =>
    obtain ⟨tail, rest, rfl, ⟨_, ⟨run, rfl, hindex, -⟩, _, rfl, _,
      ⟨argument, rfl, hvalue, -⟩, rfl⟩, -⟩ := follows_single h rfl
    exact .writeRegister hindex hvalue
  | online =>
    obtain ⟨tail, rest, rfl, rfl, -⟩ := follows_single h rfl
    exact .online _
  | reset =>
    obtain ⟨tail, rest, rfl, rfl, -⟩ := follows_single h rfl
    exact .reset _

/-- A command is read off exactly the texts that follow one of its patterns loosely. -/
theorem parse_follows_iff : parse text = .ok c ↔ Follows .loose text c := by
  rw [parse_eq_ok_iff]
  exact ⟨follows_of_spelling, spelling_of_follows⟩

/-! ### Exact lines -/

lemma patterns_single (h : c ≠ .info .banner) : ∃ p, c.patterns = [p] := by
  unfold patterns
  split
  all_goals first | exact ⟨_, rfl⟩ | exact absurd rfl h

/-- A text follows one pattern of a command at most. -/
lemma patterns_inj {p q : Pattern} (hp : p ∈ c.patterns) (hq : q ∈ c.patterns)
    (h : p.Matches .loose text) (h' : q.Matches .loose text) : p = q := by
  by_cases hc : c = .info .banner
  · subst hc
    -- The short pattern of the banner takes a text to its end, so the long one has no such text.
    obtain ⟨tail, rest, rfl, hfills, hclosed⟩ := h
    obtain ⟨tail', rest', htext, hfills', hclosed'⟩ := h'
    rcases List.mem_pair.mp hp with rfl | rfl <;> rcases List.mem_pair.mp hq with rfl | rfl
    · rfl
    · obtain rfl := hclosed (.inr rfl)
      obtain rfl := hfills
      cases htext
    · obtain rfl := hclosed' (.inr rfl)
      obtain rfl := hfills'
      cases htext
    · rfl
  · obtain ⟨r, hr⟩ := patterns_single hc
    rw [hr, List.mem_singleton] at hp hq
    rw [hp, hq]

/-- A text that is read strays from a pattern of its command unless it follows one exactly. -/
lemma follows_exact_iff (h : Follows .loose text c) :
    Follows .exact text c ↔ ∀ p ∈ c.patterns, ¬p.Strays text := by
  constructor
  · rintro ⟨q, hq, hexact⟩ p hp hstrays
    obtain ⟨hloose, hnone⟩ := matches_exact_iff.mp hexact
    obtain rfl := patterns_inj hp hq hstrays.loose hloose
    exact hnone hstrays
  · intro hnone
    obtain ⟨p, hp, hloose⟩ := h
    exact ⟨p, hp, matches_exact_iff.mpr ⟨hloose, hnone p hp⟩⟩

end Command

namespace Request
variable {line : String} {c : Command} {text : List Char}

/-! ### Lines -/

lemma text_of_here {command : Except Refusal Command} (h : parse line = .here command) :
    ∃ text, line = "AT" ++ text ∧ command = Command.parse text.toList := by
  unfold parse at h
  split at h
  · next relayed hline =>
    unfold ofRelayed at h
    split at h
    · cases h
    · dsimp only at h
      split at h <;> cases h
  · next text hline =>
    cases h
    refine ⟨String.ofList text, ?_, by rw [String.toList_ofList]⟩
    rw [← String.toList_inj, hline]
    simp
  · cases h

lemma parse_attention (text : String) : parse ("AT" ++ text) = .here (Command.parse text.toList) :=
  parse_local (by simp)

/-- A line that is refused when it is read is an error on every board, and changes nothing there. -/
lemma run_malformed {β : Type} [Board β] (f : Features) (b : β) (t : TestMode) {r : Refusal}
    (h : parse line = .here (.error r)) :
    let o := Dispatch.run f b t line
    o.reply = frame (Board.node b) errorText ∧ o.board = b ∧ o.tests = t ∧ o.effect = .stay := by
  simp only [Dispatch.run, h]
  exact ⟨rfl, rfl, rfl, rfl⟩

/-- An address is the run of digits behind the comma, and any text may come after it. -/
lemma destination_eq_ok_iff {address : List Char} {d : Destination} :
    destination address = .ok d ↔ ∃ run rest n, address = run ++ rest ∧ Numeral run rest n ∧
      n ≤ 65535 ∧ d = .ofAddress (UInt16.ofNat n) := by
  constructor
  · intro h
    rcases number_cases address with ⟨run, rest, n, rfl, hn, hread⟩ | hread
    · refine ⟨run, rest, n, rfl, hn, ?_⟩
      simp only [destination, hread, bind, Except.bind] at h
      split at h
      · next hsize =>
        cases h
        exact ⟨Nat.le_of_lt_succ hsize, rfl⟩
      · cases h
    · simp only [destination, hread, bind, Except.bind] at h
      cases h
  · rintro ⟨run, rest, n, rfl, hn, hsmall, rfl⟩
    rw [destination_eq, hn.leadingNumber_eq]
    exact (Destination.ofAddress_ofNat (Nat.lt_succ_of_le hsmall)).symm

lemma parse_addressed {body : List Char} (h : ',' ∉ body) (first : Char) (address : List Char) :
    parse ("RT" ++ String.ofList (first :: (body ++ ',' :: address))) =
      .remote (destination address) (String.ofList (first :: body)) := by
  have hline : ("RT" ++ String.ofList (first :: (body ++ ',' :: address))).toList =
      'R' :: 'T' :: first :: (body ++ ',' :: address) := by simp
  rw [parse_remote hline, ofRelayed_addressed h]

/-- Nothing on a line is corrected: its command is one that the table has for it, its address is a
number to the end of the line, and if it asks for no command it is an error that changes nothing. -/
structure Uncorrected (line : String) : Prop where
  command : ∀ c, parse line = .here (.ok c) →
    ∃ text : String, line = "AT" ++ text ∧ Command.Follows .exact text.toList c
  address : ∀ (first : Char) (body address : List Char) (d : Destination) (command : String),
    ',' ∉ body → line = "RT" ++ String.ofList (first :: (body ++ ',' :: address)) →
      parse line = .remote (.ok d) command → address ≠ [] ∧ ∀ c ∈ address, c.isDigit = true
  others : ∀ text : String, line = "AT" ++ text → (∀ c, parse line ≠ .here (.ok c)) →
    parse line = .here (.error .malformed) ∧
    ∀ {β : Type} [Board β] (f : Features) (b : β) (t : TestMode),
      let o := Dispatch.run f b t line
      o.reply = frame (Board.node b) errorText ∧ o.board = b ∧ o.tests = t ∧ o.effect = .stay

/-- Lines that are taken although they are not as they should be: a command that strays from its
pattern, and an address without a digit or with text behind it. -/
inductive Amiss : String → Prop
  | command {text : String} {c : Command} {p : Pattern} (hp : p ∈ c.patterns)
      (h : p.Strays text.toList) : Amiss ("AT" ++ text)
  | address {first : Char} {body run rest : List Char} {n : Nat} (hbody : ',' ∉ body)
      (h : Numeral run rest n) (hn : n ≤ 65535) (hloose : run = [] ∨ rest ≠ []) :
      Amiss ("RT" ++ String.ofList (first :: (body ++ ',' :: (run ++ rest))))

lemma Amiss.not_uncorrected (h : Amiss line) : ¬Uncorrected line := by
  intro hline
  cases h with
  | @command text c p hp hstrays =>
    have hfollows : Command.Follows .loose text.toList c := ⟨p, hp, hstrays.loose⟩
    have hread : parse ("AT" ++ text) = .here (.ok c) := by
      rw [parse_attention, Command.parse_follows_iff.mpr hfollows]
    obtain ⟨other, htext, hexact⟩ := hline.command c hread
    obtain rfl := (String.append_right_inj "AT").mp htext
    exact (Command.follows_exact_iff hfollows).mp hexact p hp hstrays
  | @address first body run rest n hbody hn hsmall hloose =>
    have hread := parse_addressed hbody first (run ++ rest)
    rw [destination_eq_ok_iff.mpr ⟨run, rest, n, rfl, hn, hsmall, rfl⟩] at hread
    obtain ⟨hsome, hdigits⟩ := hline.address first body (run ++ rest) _ _ hbody rfl hread
    have hend : rest = [] := by
      cases rest with
      | nil => rfl
      | cons c rest =>
        have hmem : c ∈ run ++ c :: rest := List.mem_append_right _ List.mem_cons_self
        cases (hdigits c hmem).symm.trans (hn.maximal c rfl)
    subst hend
    rw [List.append_nil] at hsome
    exact hloose.elim hsome fun h => h rfl

/-- Nothing on a line is corrected exactly if the line is not amiss. -/
theorem uncorrected_iff (line : String) : Uncorrected line ↔ ¬Amiss line := by
  refine ⟨fun h hamiss => hamiss.not_uncorrected h, fun h => ⟨?_, ?_, ?_⟩⟩
  · intro c hc
    obtain ⟨text, rfl, hread⟩ := text_of_here hc
    have hfollows := Command.parse_follows_iff.mp hread.symm
    exact ⟨text, rfl, (Command.follows_exact_iff hfollows).mpr fun p hp hstrays =>
      h (.command hp hstrays)⟩
  · intro first body address d command hbody hline hread
    rw [hline, parse_addressed hbody, Request.remote.injEq] at hread
    obtain ⟨run, rest, n, rfl, hn, hsmall, -⟩ := destination_eq_ok_iff.mp hread.1
    have hexact : ¬(run = [] ∨ rest ≠ []) := fun hloose =>
      h (hline ▸ .address hbody hn hsmall hloose)
    obtain ⟨hsome, hend⟩ := not_or.mp hexact
    obtain rfl := not_not.mp hend
    rw [List.append_nil]
    exact ⟨hsome, hn.digits⟩
  · rintro text rfl hnone
    have hmalformed : parse ("AT" ++ text) = .here (.error .malformed) := by
      rcases Command.parse_reads text.toList with ⟨c, hread, -⟩ | hread
      · exact absurd (by rw [parse_attention, hread]) (hnone c)
      · rw [parse_attention, hread]
    exact ⟨hmalformed, fun f b t => run_malformed f b t hmalformed⟩

example : parse "RTAT,5X" = .remote (.ok (.node 5)) "AT" := rfl

/-- A write to a register without a value is taken for a write of zero. -/
theorem arguments_made_up :
    parse "ATS3=" = .here (.ok (.writeRegister 3 0)) ∧ ¬Uncorrected "ATS3=" := by
  have hindex : Numeral ['3'] ['='] 3 := numeral_before (n := 3) [] (by decide) (by decide)
  have hvalue : Numeral [] [] 0 := ⟨by simp, by simp, rfl, by decide⟩
  have hstrays : Pattern.Strays ⟨['S'], [.number 3, .char '=', .number 0], false⟩
      ['S', '3', '='] := by
    refine ⟨['3', '='], [], rfl, ?_, nofun, .inl ?_⟩
    · exact ⟨_, takes_number hindex, _, rfl, _, takes_number hvalue, rfl⟩
    · exact ⟨_, takes_number hindex, .inr ⟨_, rfl, .inr ⟨_, takes_number hvalue, .inl rfl⟩⟩⟩
  have hamiss : Amiss ("AT" ++ "S3=") :=
    .command (c := .writeRegister 3 0) (List.mem_singleton_self _) hstrays
  exact ⟨rfl, hamiss.not_uncorrected⟩

end Request

end RadioModem
