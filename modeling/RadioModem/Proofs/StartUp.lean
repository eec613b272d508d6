import RadioModem.Proofs.ByteOrder
import RadioModem.Proofs.Overrides

/-!
# Start-up

Which configurations a node can be built from, what its registers hold then, and why it cannot be
built from any other. All of it is said of the values that the configuration names, by the order of
their names and not by the order of work.
-/
namespace RadioModem

namespace Registers

/-- A name means a register in any letter case. -/
def Names (name : String) (index : Nat) : Prop :=
  ∃ info, info? index = some info ∧ sameName info.name name = true

/-- A value that a register other than that of the storage format takes. -/
def Fits (entry : String × Nat) : Prop :=
  ∃ index info, info? index = some info ∧ sameName info.name entry.1 = true ∧
    index ≠ 0 ∧ info.low ≤ entry.2 ∧ entry.2 ≤ info.high

end Registers

namespace Configuration
open Registers (Names Fits)

/-- What a register has when the node leaves the factory. -/
inductive Factory (c : Configuration) : Nat → Nat → Prop
  | address : Factory c nodeIdIndex c.identity.node.toNat
  | initial {index : Nat} {info : RegisterInfo} (hindex : index ≠ nodeIdIndex)
      (hinfo : Registers.info? index = some info) : Factory c index info.initial

/-- What a register has when the node has started: of the values that name it, that of the last name
in byte order. -/
inductive Starts (c : Configuration) : Nat → Nat → Prop
  | named {index : Nat} {name : String} {value : Nat} (hmem : (name, value) ∈ c.parameters)
      (hnames : Names name index)
      (hlast : ∀ other ∈ c.parameters, Names other.1 index →
        ¬utf8Bytes name < utf8Bytes other.1) : Starts c index value
  | unnamed {index value : Nat} (hnone : ∀ entry ∈ c.parameters, ¬Names entry.1 index)
      (hfactory : c.Factory index value) : Starts c index value

/-- A configuration that a node can be built from. -/
structure Startable (c : Configuration) : Prop where
  address : c.identity.node.toNat ≤ 65534
  fits : ∀ entry ∈ c.parameters, Fits entry
  agrees : c.Starts nodeIdIndex c.identity.node.toNat

/-- The first value in byte order that is not for a register or that its register does not take. -/
structure FirstUnfit (c : Configuration) (entry : String × Nat) : Prop where
  mem : entry ∈ c.parameters
  unfit : ¬Fits entry
  first : ∀ other ∈ c.parameters, ¬Fits other → ¬utf8Bytes other.1 < utf8Bytes entry.1

/-- Why a node cannot be built from a configuration. -/
inductive StartFault (c : Configuration) : SetupError → Prop
  | broadcast (haddress : c.identity.node.toNat = 65535) :
      StartFault c (.invalidParameter "NODEID" 65535)
  | unknown {name : String} {value : Nat} (haddress : c.identity.node.toNat ≤ 65534)
      (hfirst : c.FirstUnfit (name, value)) (hunknown : ∀ index, ¬Names name index) :
      StartFault c (.unknownParameter name)
  | refused {name : String} {value index : Nat} (haddress : c.identity.node.toNat ≤ 65534)
      (hfirst : c.FirstUnfit (name, value)) (hnames : Names name index) :
      StartFault c (.invalidParameter name value)
  | differs {held : Nat} (haddress : c.identity.node.toNat ≤ 65534)
      (hfits : ∀ entry ∈ c.parameters, Fits entry) (hheld : c.Starts nodeIdIndex held)
      (hdiffers : held ≠ c.identity.node.toNat) :
      StartFault c (.unusable (.addressDiffers held c.identity.node))

end Configuration

namespace Registers
variable {name : String} {index : Nat} {entry : String × Nat}

/-! ### Names of registers -/

lemma names_unique {other : Nat} (h : Names name index) (h' : Names name other) :
    index = other := by
  obtain ⟨info, hinfo, hsame⟩ := h
  obtain ⟨info', hinfo', hsame'⟩ := h'
  let letters (r : RegisterInfo) := r.name.toList.map Char.toLower
  have hnodup : (registerTable.map letters).Nodup := by decide
  have hlookup {i : Nat} {r : RegisterInfo} (h : info? i = some r) :
      (registerTable.map letters)[i]? = some (letters r) :=
    List.getElem?_map.trans (congrArg (Option.map letters) h)
  have hletters : letters info = letters info' := (eq_of_beq hsame).trans (eq_of_beq hsame').symm
  refine (List.getElem?_inj ?_ hnodup).mp ?_
  · exact (List.length_map _).symm ▸ info?_lt hinfo
  · rw [hlookup hinfo, hlookup hinfo', hletters]

lemma indexOf?_eq_some_iff : indexOf? name = some index ↔ Names name index := by
  have hfound {index : Nat} (h : indexOf? name = some index) : Names name index := by
    obtain ⟨hlt, hsame, -⟩ := List.findIdx?_eq_some_iff_getElem.mp h
    exact ⟨_, List.getElem?_eq_getElem hlt, hsame⟩
  refine ⟨hfound, fun h => ?_⟩
  cases hindex : indexOf? name with
  | some other => rw [names_unique (hfound hindex) h]
  | none =>
    obtain ⟨info, hinfo, hsame⟩ := h
    have hnone := List.findIdx?_eq_none_iff.mp hindex info (List.mem_of_getElem? hinfo)
    simp [hsame] at hnone

lemma entryFault?_eq_none_iff : entryFault? entry = none ↔ Fits entry := by
  unfold entryFault?
  constructor
  · intro h
    split at h
    · cases h
    · next index hindex =>
      obtain ⟨info, hinfo, hsame⟩ := indexOf?_eq_some_iff.mp hindex
      split at h
      · next hw =>
        obtain ⟨hzero, info', hinfo', hbounds⟩ := writable_iff.mp hw
        obtain rfl := Option.some.inj (hinfo.symm.trans hinfo')
        exact ⟨index, info, hinfo, hsame, hzero, hbounds⟩
      · cases h
  · rintro ⟨index, info, hinfo, hsame, hzero, hbounds⟩
    have hw : writable index entry.2 = true := writable_iff.mpr ⟨hzero, info, hinfo, hbounds⟩
    rw [indexOf?_eq_some_iff.mpr ⟨info, hinfo, hsame⟩]
    simp [hw]

/-- What is complained about is the value or the name, by whether the name means a register. -/
lemma entryFault?_of_unfit (h : ¬Fits entry) :
    ((∀ index, ¬Names entry.1 index) ∧ entryFault? entry = some (.unknownParameter entry.1)) ∨
    ((∃ index, Names entry.1 index) ∧
      entryFault? entry = some (.invalidParameter entry.1 entry.2)) := by
  cases hindex : indexOf? entry.1 with
  | none =>
    refine .inl ⟨fun index hnames => ?_, by simp [entryFault?, hindex]⟩
    cases hindex.symm.trans (indexOf?_eq_some_iff.mpr hnames)
  | some index =>
    right
    refine ⟨⟨index, indexOf?_eq_some_iff.mp hindex⟩, ?_⟩
    cases hw : writable index entry.2 with
    | true => exact absurd (entryFault?_eq_none_iff.mp (by simp [entryFault?, hindex, hw])) h
    | false => simp [entryFault?, hindex, hw]

lemma length_factoryOf (node : Address) : (factoryOf node).length = count :=
  List.length_set ..

end Registers

namespace Configuration
open Registers (Names Fits factoryOf place indexOf?_eq_some_iff entryFault? entryFault?_eq_none_iff)

variable {c : Configuration} {index value : Nat}

/-! ### What the registers start with -/

lemma factory_iff : (factoryOf c.identity.node)[index]? = some value ↔ c.Factory index value := by
  by_cases haddress : index = nodeIdIndex
  · subst haddress
    rw [factoryOf, List.getElem?_set_self (by decide), Option.some.injEq]
    constructor
    · rintro rfl
      exact .address
    · intro h
      cases h with
      | address => rfl
      | initial hindex => exact absurd rfl hindex
  · rw [factoryOf, List.getElem?_set_ne (Ne.symm haddress), Registers.initial, List.getElem?_map,
      Option.map_eq_some_iff]
    constructor
    · rintro ⟨info, hinfo, rfl⟩
      exact .initial haddress hinfo
    · intro h
      cases h with
      | address => exact absurd rfl haddress
      | initial _ hinfo => exact ⟨_, hinfo, rfl⟩

/-- What is in use when all values of a configuration are set. -/
def started (c : Configuration) : List Nat := c.parameters.foldl place (factoryOf c.identity.node)

/-- Of the values for a register, the last in byte order is what it starts with. -/
lemma started_named {name : String} (h : c.parameters.InByteOrder)
    (hmem : (name, value) ∈ c.parameters) (hnames : Names name index)
    (hlast : ∀ other ∈ c.parameters, Names other.1 index → ¬utf8Bytes name < utf8Bytes other.1) :
    c.started[index]? = some value := by
  obtain ⟨before, later, hsplit⟩ := List.append_of_mem hmem
  have hindex := indexOf?_eq_some_iff.mpr hnames
  have hlater : ∀ other ∈ later, Registers.indexOf? other.1 ≠ some index := by
    intro other ho hnamed
    refine hlast other (by simp [hsplit, ho]) (indexOf?_eq_some_iff.mp hnamed) ?_
    rw [hsplit] at h
    exact h.lt_of_later ho
  rw [started, Registers.getElem?_placed, hsplit, Registers.given?_of_last hindex hlater,
    Option.some_or]
  rw [Registers.length_factoryOf]
  exact Registers.indexOf?_lt hindex

lemma exists_last {α : Type} {p : α → Prop} {xs : List α} (h : ∃ x ∈ xs, p x) :
    ∃ before x later, xs = before ++ x :: later ∧ p x ∧ ∀ y ∈ later, ¬p y := by
  induction xs using List.reverseRecOn with
  | nil => simp at h
  | append_singleton xs a ih =>
    by_cases ha : p a
    · exact ⟨xs, a, [], rfl, ha, nofun⟩
    · obtain ⟨x, hx, hp⟩ := h
      have hmem : x ∈ xs := by
        rcases List.mem_append.mp hx with hx | hx
        · exact hx
        · exact absurd (List.mem_singleton.mp hx ▸ hp) ha
      obtain ⟨before, x, later, rfl, hpx, hlater⟩ := ih ⟨x, hmem, hp⟩
      refine ⟨before, x, later ++ [a], by simp, hpx, ?_⟩
      simpa [or_imp, forall_and] using ⟨hlater, ha⟩

lemma started_iff (h : c.parameters.InByteOrder) :
    c.started[index]? = some value ↔ c.Starts index value := by
  have hstarts {value : Nat} (hs : c.Starts index value) : c.started[index]? = some value := by
    cases hs with
    | named hmem hnames hlast => exact started_named h hmem hnames hlast
    | unnamed hnone hfactory =>
      rw [started, Registers.getElem?_unplaced fun entry he hi =>
        hnone entry he (indexOf?_eq_some_iff.mp hi)]
      exact factory_iff.mpr hfactory
  refine ⟨fun hheld => ?_, hstarts⟩
  by_cases hnamed : ∃ entry ∈ c.parameters, Names entry.1 index
  · obtain ⟨before, ⟨name, last⟩, later, hsplit, hnames, hlater⟩ := exists_last hnamed
    have hs : c.Starts index last := by
      refine .named (by simp [hsplit]) hnames fun other ho hother hlt => ?_
      rw [hsplit] at h ho
      exact hlater other (h.later_of_lt ho hlt) hother
    rwa [← Option.some.inj ((hstarts hs).symm.trans hheld)]
  · have hnone : ∀ entry ∈ c.parameters, ¬Names entry.1 index :=
      fun entry he hn => hnamed ⟨entry, he, hn⟩
    rw [started, Registers.getElem?_unplaced fun entry he hi =>
      hnone entry he (indexOf?_eq_some_iff.mp hi)] at hheld
    exact .unnamed hnone (factory_iff.mp hheld)

/-! ### What keeps a node from starting -/

lemma fits_of_fault (h : c.parameters.findSome? entryFault? = none) :
    ∀ entry ∈ c.parameters, Fits entry :=
  fun entry he => entryFault?_eq_none_iff.mp (List.findSome?_eq_none_iff.mp h entry he)

/-- The first value that cannot be set is the first in byte order. -/
lemma FirstUnfit.fault {entry : String × Nat} (h : c.parameters.InByteOrder)
    (hfirst : c.FirstUnfit entry) :
    c.parameters.findSome? entryFault? = entryFault? entry := by
  obtain ⟨before, later, hsplit⟩ := List.append_of_mem hfirst.mem
  have hbefore : ∀ other ∈ before, entryFault? other = none := by
    intro other ho
    rw [entryFault?_eq_none_iff]
    by_contra hunfit
    refine hfirst.first other (by simp [hsplit, ho]) hunfit ?_
    rw [hsplit] at h
    exact h.lt_of_before ho
  rw [hsplit, List.findSome?_append, List.findSome?_eq_none_iff.mpr hbefore, Option.none_or,
    List.findSome?_cons]
  cases hfault : entryFault? entry with
  | none => exact absurd (entryFault?_eq_none_iff.mp hfault) hfirst.unfit
  | some e => rfl

lemma exists_firstUnfit (h : c.parameters.InByteOrder)
    (hfault : c.parameters.findSome? entryFault? ≠ none) : ∃ entry, c.FirstUnfit entry := by
  obtain ⟨e, he⟩ := Option.ne_none_iff_exists'.mp hfault
  obtain ⟨before, entry, later, hsplit, hentry, hbefore⟩ := List.findSome?_eq_some_iff.mp he
  refine ⟨entry, by simp [hsplit], fun hfits => ?_, fun other ho hunfit hlt => ?_⟩
  · cases hentry.symm.trans (entryFault?_eq_none_iff.mpr hfits)
  · rw [hsplit] at h ho
    exact hunfit (entryFault?_eq_none_iff.mp (hbefore other (h.before_of_lt ho hlt)))

end Configuration

namespace Node
open Registers (Fits factoryOf entryFault? entryFault?_eq_none_iff)
variable {c : Configuration} {n : Node}

lemma forNode_addressed (h : c.identity.node.toNat ≤ 65534) :
    Registers.forNode c.identity.node = .ok (.ofValues (factoryOf c.identity.node)) := by
  have haccepts : nodeIdInfo.accepts c.identity.node.toNat = true :=
    Bool.and_eq_true_iff.mpr ⟨decide_eq_true (Nat.zero_le _), decide_eq_true h⟩
  rw [Registers.forNode, if_pos haccepts]
  rfl

lemma ofConfiguration_broadcast (h : c.identity.node.toNat = 65535) :
    ofConfiguration c = .error (.invalidParameter "NODEID" 65535) := by
  have hforNode : Registers.forNode c.identity.node =
      .error (.invalidParameter "NODEID" 65535) := by
    rw [Registers.forNode, h]
    rfl
  rw [ofConfiguration, hforNode]
  rfl

lemma ofConfiguration_fault (haddress : c.identity.node.toNat ≤ 65534) {e : SetupError}
    (h : c.parameters.findSome? entryFault? = some e) : ofConfiguration c = .error e := by
  rw [ofConfiguration, forNode_addressed haddress]
  have hfault := (Registers.override_fault (.ofValues (factoryOf c.identity.node)) _).trans h
  simp only [bind, Except.bind]
  split
  · next hoverride =>
    rw [hoverride] at hfault
    rw [Option.some.inj hfault]
  · next hoverride =>
    rw [hoverride] at hfault
    cases hfault

lemma override_started (h : ∀ entry ∈ c.parameters, Fits entry) :
    (Registers.ofValues (factoryOf c.identity.node)).override c.parameters =
      (⟨factoryOf c.identity.node, c.started, c.started⟩, none) := by
  have hnone : c.parameters.findSome? entryFault? = none :=
    List.findSome?_eq_none_iff.mpr fun entry he => entryFault?_eq_none_iff.mpr (h entry he)
  exact Prod.ext (Registers.override_ok hnone) ((Registers.override_fault ..).trans hnone)

lemma ofConfiguration_fits (haddress : c.identity.node.toNat ≤ 65534)
    (h : ∀ entry ∈ c.parameters, Fits entry) {held : Nat}
    (hheld : c.started[nodeIdIndex]? = some held) :
    (held ≠ c.identity.node.toNat →
      ofConfiguration c = .error (.unusable (.addressDiffers held c.identity.node))) ∧
    (held = c.identity.node.toNat → ∃ n, ofConfiguration c = .ok n ∧
      n.registers = ⟨factoryOf c.identity.node, c.started, c.started⟩) := by
  have hget :
      Registers.get ⟨factoryOf c.identity.node, c.started, c.started⟩ nodeIdIndex = held := by
    rw [Registers.get, hheld, Option.getD_some]
  rw [ofConfiguration, forNode_addressed haddress]
  simp only [bind, Except.bind, override_started h, hget]
  constructor
  · intro hdiffers
    rw [if_pos hdiffers]
  · intro hagrees
    rw [if_neg (not_not.mpr hagrees)]
    exact ⟨_, rfl, rfl⟩

lemma ofConfiguration_startable (h : c.parameters.InByteOrder) (hs : c.Startable) :
    ∃ n, ofConfiguration c = .ok n ∧
      n.registers = ⟨factoryOf c.identity.node, c.started, c.started⟩ :=
  (ofConfiguration_fits hs.address hs.fits ((Configuration.started_iff h).mpr hs.agrees)).2 rfl

lemma ofConfiguration_startFault (h : c.parameters.InByteOrder) {e : SetupError}
    (hf : c.StartFault e) : ofConfiguration c = .error e := by
  cases hf with
  | broadcast haddress => exact ofConfiguration_broadcast haddress
  | @unknown name value haddress hfirst hunknown =>
    refine ofConfiguration_fault haddress ((hfirst.fault h).trans ?_)
    rcases Registers.entryFault?_of_unfit hfirst.unfit with ⟨-, hfault⟩ | ⟨⟨index, hnames⟩, -⟩
    · exact hfault
    · exact absurd hnames (hunknown index)
  | @refused name value index haddress hfirst hnames =>
    refine ofConfiguration_fault haddress ((hfirst.fault h).trans ?_)
    rcases Registers.entryFault?_of_unfit hfirst.unfit with ⟨hunknown, -⟩ | ⟨-, hfault⟩
    · exact absurd hnames (hunknown index)
    · exact hfault
  | differs haddress hfits hheld hdiffers =>
    exact (ofConfiguration_fits haddress hfits ((Configuration.started_iff h).mpr hheld)).1 hdiffers

lemma startable_or_startFault (h : c.parameters.InByteOrder) :
    c.Startable ∨ ∃ e, c.StartFault e := by
  have hword : c.identity.node.toNat < 65536 := c.identity.node.toNat_lt
  by_cases haddress : c.identity.node.toNat ≤ 65534
  · by_cases hfault : c.parameters.findSome? entryFault? = none
    · have hfits := Configuration.fits_of_fault hfault
      have hlt : nodeIdIndex < c.started.length := by
        rw [Configuration.started, Registers.length_placed, Registers.length_factoryOf]
        decide
      have hheld := (Configuration.started_iff h).mp (List.getElem?_eq_getElem hlt)
      by_cases hagrees : c.started[nodeIdIndex] = c.identity.node.toNat
      · exact .inl ⟨haddress, hfits, hagrees ▸ hheld⟩
      · exact .inr ⟨_, .differs haddress hfits hheld hagrees⟩
    · obtain ⟨⟨name, value⟩, hfirst⟩ := Configuration.exists_firstUnfit h hfault
      rcases Registers.entryFault?_of_unfit hfirst.unfit with ⟨hunknown, -⟩ | ⟨⟨index, hnames⟩, -⟩
      · exact .inr ⟨_, .unknown haddress hfirst hunknown⟩
      · exact .inr ⟨_, .refused haddress hfirst hnames⟩
  · exact .inr ⟨_, .broadcast (by omega)⟩

/-- A node starts exactly if its settings are startable, with the last value in byte order for each
register, all of them saved. Otherwise it complains about the address first, then about the first
value that does not fit, then about the register of the address. -/
theorem start_exact (h : c.parameters.InByteOrder) :
    ((∃ n, ofConfiguration c = .ok n) ↔ c.Startable) ∧
    (∀ n, ofConfiguration c = .ok n →
      n.registers.live = n.registers.saved ∧ n.registers.live.length = 19 ∧
      ∀ index value, (n.registers.live[index]? = some value ↔ c.Starts index value) ∧
        (n.registers.factory[index]? = some value ↔ c.Factory index value)) ∧
    ∀ e, ofConfiguration c = .error e ↔ c.StartFault e := by
  refine ⟨⟨?_, fun hs => ?_⟩, fun n hn => ?_, fun e => ⟨fun he => ?_, ofConfiguration_startFault h⟩⟩
  · rintro ⟨n, hn⟩
    rcases startable_or_startFault h with hs | ⟨e, hf⟩
    · exact hs
    · cases hn.symm.trans (ofConfiguration_startFault h hf)
  · obtain ⟨n, hn, -⟩ := ofConfiguration_startable h hs
    exact ⟨n, hn⟩
  · rcases startable_or_startFault h with hs | ⟨e, hf⟩
    · obtain ⟨n', hn', hregisters⟩ := ofConfiguration_startable h hs
      obtain rfl := Except.ok.inj (hn.symm.trans hn')
      rw [hregisters]
      refine ⟨rfl, ?_, fun index value =>
        ⟨Configuration.started_iff h, Configuration.factory_iff⟩⟩
      exact (Registers.length_placed ..).trans (Registers.length_factoryOf _)
    · cases hn.symm.trans (ofConfiguration_startFault h hf)
  · rcases startable_or_startFault h with hs | ⟨e', hf⟩
    · obtain ⟨n, hn, -⟩ := ofConfiguration_startable h hs
      cases he.symm.trans hn
    · rwa [Except.error.inj (he.symm.trans (ofConfiguration_startFault h hf))]

/-- The third node of a network, with some start-up values. -/
def thirdWith (entries : List (String × Nat)) : Configuration :=
  { Configuration.standard with
    identity := { Identity.standard with node := 3 }
    parameters := .ofList entries }

/-- Capitals come first in byte order: their value is replaced, and their fault is the first. -/
theorem start_exact_capitals :
    let c := thirdWith [("netid", 5), ("nodeid", 3), ("NETID", 7)]
    let faulty := thirdWith [("bogus", 1), ("FORMAT", 27)]
    c.parameters.InByteOrder ∧ c.Startable ∧ c.Starts 3 5 ∧
    faulty.parameters.InByteOrder ∧ faulty.StartFault (.invalidParameter "FORMAT" 27) := by
  intro c faulty
  have horder : c.parameters.InByteOrder := Overrides.ofList_inByteOrder _
  have horder' : faulty.parameters.InByteOrder := Overrides.ofList_inByteOrder _
  obtain ⟨n, hn⟩ : ∃ n, ofConfiguration c = .ok n := ⟨_, rfl⟩
  obtain ⟨hok, hregisters, -⟩ := start_exact horder
  refine ⟨horder, hok.mp ⟨n, hn⟩, ((hregisters n hn).2.2 3 5).1.mp ?_, horder',
    ((start_exact horder').2.2 _).mp rfl⟩
  cases hn
  decide +kernel

end Node

end RadioModem
