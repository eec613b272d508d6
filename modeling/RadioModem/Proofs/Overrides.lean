import Mathlib.Data.List.Induction
import Mathlib.Data.List.Pairwise
import RadioModem.Proofs.Registers

/-!
# Start-up values

Values that are given by name are set one after the other. Whether one can be set is up to its name
and its value alone, and where several name one register the last of them is in it in the end, so
only there does their order matter. All values in use are then kept through a restart, the named
ones and the others.
-/
namespace RadioModem

namespace Registers

/-- Register files, by what makes and changes them. -/
inductive Arises : Registers → Prop
  | standard : Arises .standard
  | ofNode {node : Address} {r : Registers} (h : forNode node = .ok r) : Arises r
  | set {r : Registers} (index value : Nat) (h : Arises r) : Arises (r.set index value).1
  | save {r : Registers} (h : Arises r) : Arises r.save
  | reset {r : Registers} (h : Arises r) : Arises r.reset
  | override {r : Registers} (values : Overrides) (h : Arises r) : Arises (r.override values).1

/-- Why an entry cannot be set, if it cannot. -/
def entryFault? (entry : String × Nat) : Option SetupError :=
  match indexOf? entry.1 with
  | none => some (.unknownParameter entry.1)
  | some index =>
    if writable index entry.2 then none else some (.invalidParameter entry.1 entry.2)

/-- The values in use once an entry is in its register. -/
def place (live : List Nat) (entry : String × Nat) : List Nat :=
  (indexOf? entry.1).elim live fun index => live.set index entry.2

/-- What the last entry for a register gives it. -/
def given? (values : Overrides) (index : Nat) : Option Nat :=
  (values.filter fun entry => indexOf? entry.1 = some index).getLast?.map Prod.snd

variable {r : Registers} {values : Overrides} {live : List Nat} {index : Nat}

lemma Arises.fileOf (h : r.Arises) : ∃ node, r.FileOf node := by
  induction h with
  | standard => exact ⟨2, fileOf_forNode rfl⟩
  | ofNode h => exact ⟨_, fileOf_forNode h⟩
  | set index value _ ih =>
    obtain ⟨node, hfile⟩ := ih
    exact ⟨node, hfile.set index value⟩
  | save _ ih =>
    obtain ⟨node, hfile⟩ := ih
    exact ⟨node, hfile.save⟩
  | reset _ ih =>
    obtain ⟨node, hfile⟩ := ih
    exact ⟨node, hfile.reset⟩
  | override values _ ih =>
    obtain ⟨node, hfile⟩ := ih
    exact ⟨node, hfile.override values⟩

/-! ### One entry after the other -/

lemma setNamed_eq (r : Registers) (entry : String × Nat) : r.setNamed entry.1 entry.2 =
    (entryFault? entry).elim (.ok { r with live := place r.live entry }) .error := by
  unfold setNamed entryFault? place
  cases indexOf? entry.1 with
  | none => rfl
  | some index =>
    unfold Registers.set
    by_cases hw : writable index entry.2 = true
    · simp [hw]
    · simp [hw]

/-- The first entry that cannot be set is the one that is complained about, and without one all of
them are placed. -/
lemma setAll_eq (r : Registers) (values : Overrides) :
    (r.setAll values).2 = values.findSome? entryFault? ∧
      (values.findSome? entryFault? = none →
        (r.setAll values).1 = { r with live := values.foldl place r.live }) := by
  induction values generalizing r with
  | nil => exact ⟨rfl, fun _ => rfl⟩
  | cons entry values ih =>
    obtain ⟨name, value⟩ := entry
    rw [setAll, setNamed_eq r (name, value), List.findSome?_cons]
    cases entryFault? (name, value) with
    | some e => exact ⟨rfl, fun h => by cases h⟩
    | none => exact ih _

lemma override_fault (r : Registers) (values : Overrides) :
    (r.override values).2 = values.findSome? entryFault? := by
  rw [← (setAll_eq r values).1, override]
  split <;> simp [*]

lemma override_ok (h : values.findSome? entryFault? = none) :
    (r.override values).1 =
      { r with live := values.foldl place r.live, saved := values.foldl place r.live } := by
  have hall : r.setAll values = ({ r with live := values.foldl place r.live }, none) :=
    Prod.ext ((setAll_eq r values).2 h) ((setAll_eq r values).1.trans h)
  rw [override, hall]
  rfl

/-! ### What is in a register in the end -/

variable {entry : String × Nat}

lemma place_self (h : indexOf? entry.1 = some index) (hlt : index < live.length) :
    (place live entry)[index]? = some entry.2 := by
  rw [place, h]
  exact List.getElem?_set_self hlt

lemma place_ne (h : indexOf? entry.1 ≠ some index) :
    (place live entry)[index]? = live[index]? := by
  unfold place
  cases hi : indexOf? entry.1 with
  | none => rfl
  | some other => exact List.getElem?_set_ne fun he => h (hi.trans (congrArg some he))

lemma length_place (live : List Nat) (entry : String × Nat) :
    (place live entry).length = live.length := by
  unfold place
  cases indexOf? entry.1 with
  | none => rfl
  | some index => exact List.length_set ..

lemma place_comm {a b : String × Nat} (h : indexOf? a.1 ≠ indexOf? b.1) :
    place (place live a) b = place (place live b) a := by
  unfold place
  cases ha : indexOf? a.1 with
  | none => rfl
  | some i =>
    cases hb : indexOf? b.1 with
    | none => rfl
    | some j => exact List.set_comm _ _ fun he => h (by rw [ha, hb, he])

lemma length_placed (live : List Nat) (values : Overrides) :
    (values.foldl place live).length = live.length := by
  induction values generalizing live with
  | nil => rfl
  | cons entry values ih => rw [List.foldl_cons, ih, length_place]

/-- The last entry for a register is what is in it. -/
lemma getElem?_placed (h : index < live.length) (values : Overrides) :
    (values.foldl place live)[index]? = (given? values index).or live[index]? := by
  induction values using List.reverseRecOn with
  | nil => rfl
  | append_singleton values entry ih =>
    rw [List.foldl_append, List.foldl_cons, List.foldl_nil, given?, List.filter_append]
    by_cases hnames : indexOf? entry.1 = some index
    · rw [place_self hnames ((length_placed live values).symm ▸ h)]
      simp [hnames]
    · rw [place_ne hnames, ih]
      simp [hnames, given?]

lemma given?_of_last {before later : Overrides} {name : String} {value : Nat}
    (h : indexOf? name = some index) (hlater : ∀ other ∈ later, indexOf? other.1 ≠ some index) :
    given? (before ++ (name, value) :: later) index = some value := by
  have hnone : later.filter (fun other => indexOf? other.1 = some index) = [] :=
    List.filter_eq_nil_iff.mpr fun other ho => by simpa using hlater other ho
  simp [given?, List.filter_append, h, hnone]

/-- A register that no entry is for stays as it is. -/
lemma getElem?_unplaced (h : ∀ entry ∈ values, indexOf? entry.1 ≠ some index) (live : List Nat) :
    (values.foldl place live)[index]? = live[index]? := by
  induction values generalizing live with
  | nil => rfl
  | cons entry values ih =>
    obtain ⟨hentry, hvalues⟩ := List.forall_mem_cons.mp h
    rw [List.foldl_cons, ih hvalues, place_ne hentry]

/-- Entries for different registers can be placed in any order. -/
lemma placed_perm {values' : Overrides} (hperm : values'.Perm values)
    (hapart : values.Pairwise fun a b => indexOf? a.1 ≠ indexOf? b.1) :
    values'.foldl place live = values.foldl place live := by
  have hsymm : Std.Symm fun a b : String × Nat => indexOf? a.1 ≠ indexOf? b.1 :=
    ⟨fun _ _ h => h.symm⟩
  refine (hperm.symm.foldl_eq' (fun a ha b hb live => ?_) live).symm
  by_cases he : a = b
  · rw [he]
  · exact place_comm (hapart.forall ha hb he)

lemma fault_perm {values' : Overrides} (hperm : values'.Perm values) :
    values'.findSome? entryFault? = none ↔ values.findSome? entryFault? = none := by
  simp only [List.findSome?_eq_none_iff, hperm.mem_iff]

/-- An entry that can be set has a register. -/
lemma indexOf?_of_fault (h : entryFault? entry = none) :
    ∃ index, indexOf? entry.1 = some index := by
  unfold entryFault? at h
  split at h
  · cases h
  · next index hi => exact ⟨index, hi⟩

lemma indexOf?_lt {name : String} (h : indexOf? name = some index) : index < count :=
  (List.findIdx?_eq_some_iff_getElem.mp h).1

/-- If all values can be set, each is in its register, in use and through a restart, unless a later
one is for the same register. Their order matters where there are such rivals only. -/
theorem override_takes_effect (hr : r.Arises) (hok : (r.override values).2 = none) :
    let after := (r.override values).1
    (∀ before name value later, values = before ++ (name, value) :: later →
      (∀ other ∈ later, indexOf? other.1 ≠ indexOf? name) →
        ∃ index, indexOf? name = some index ∧ after.live[index]? = some value ∧
          after.saved[index]? = some value) ∧
    (∀ index, (∀ entry ∈ values, indexOf? entry.1 ≠ some index) →
      after.live[index]? = r.live[index]?) ∧
    after.saved = after.live ∧ after.factory = r.factory ∧
    ∀ values' : Overrides, values'.Perm values → (r.override values').2 = none ∧
      (values.Pairwise (fun a b => indexOf? a.1 ≠ indexOf? b.1) →
        r.override values' = r.override values) := by
  obtain ⟨node, hfile⟩ := hr.fileOf
  rw [override_fault] at hok
  intro after
  have hafter : after = { r with
      live := values.foldl place r.live, saved := values.foldl place r.live } := override_ok hok
  rw [hafter]
  refine ⟨fun before name value later hvalues hlater => ?_, fun index hunnamed => ?_, rfl, rfl,
    fun values' hperm => ⟨?_, fun hapart => ?_⟩⟩
  · have hfault : entryFault? (name, value) = none :=
      List.findSome?_eq_none_iff.mp hok _ (by simp [hvalues])
    obtain ⟨index, hindex⟩ := indexOf?_of_fault hfault
    have hlive : (values.foldl place r.live)[index]? = some value := by
      rw [getElem?_placed (hfile.live.length.symm ▸ indexOf?_lt hindex), hvalues,
        given?_of_last hindex (hindex ▸ hlater), Option.some_or]
    exact ⟨index, hindex, hlive, hlive⟩
  · exact getElem?_unplaced hunnamed r.live
  · rw [override_fault]
    exact (fault_perm hperm).mpr hok
  · have hok' : values'.findSome? entryFault? = none := (fault_perm hperm).mpr hok
    refine Prod.ext ?_ ?_
    · rw [override_ok hok', override_ok hok, placed_perm hperm hapart]
    · rw [override_fault, override_fault, hok', hok]

/-- One register under two names, which differ in their letter case. -/
def twiceNamed : Overrides := [("NETID", 5), ("netid", 6)]

/-- The later of two values for one register is kept through a restart, together with a value that
had been set and not been saved. -/
theorem override_takes_effect_later :
    let r := (standard.set 4 11).1
    (r.override twiceNamed).2 = none ∧ r.saved[4]? = some 20 ∧
    (r.override twiceNamed).1.live[3]? = some 6 ∧ (r.override twiceNamed).1.saved[3]? = some 6 ∧
    (r.override twiceNamed).1.saved[4]? = some 11 := by
  intro r
  have hok : (r.override twiceNamed).2 = none := by decide +kernel
  obtain ⟨hlast, hunnamed, hsaved, -⟩ :=
    override_takes_effect (Arises.standard.set 4 11) hok
  obtain ⟨index, hindex, hlive, hkept⟩ := hlast [("NETID", 5)] "netid" 6 [] rfl nofun
  have hthree : index = 3 := Option.some.inj (hindex.symm.trans (by decide +kernel))
  subst hthree
  refine ⟨hok, rfl, hlive, hkept, ?_⟩
  rw [hsaved, hunnamed 4 (by decide +kernel)]
  rfl

/-- Two names of one register get into each other's way, in either order, and a register that is
not named is kept through a restart with another value than before. -/
theorem override_interferes :
    (¬∀ (r : Registers) (values : Overrides), r.Arises → Overrides.ofList values = values →
      (r.override values).2 = none → ∀ entry ∈ values, ∀ index, indexOf? entry.1 = some index →
        (r.override values).1.live[index]? = some entry.2) ∧
    (¬∀ (r : Registers) (values : Overrides), r.Arises → Overrides.ofList values = values →
      (r.override values).2 = none →
        ∀ index, (∀ entry ∈ values, indexOf? entry.1 ≠ some index) →
          (r.override values).1.saved[index]? = r.saved[index]?) ∧
    ¬∀ (r : Registers) (values values' : Overrides), r.Arises →
      Overrides.ofList values = values → (r.override values).2 = none → values'.Perm values →
        r.override values' = r.override values := by
  refine ⟨fun h => ?_, fun h => ?_, fun h => ?_⟩
  · exact absurd (h .standard twiceNamed .standard (by decide +kernel) (by decide +kernel)
      ("NETID", 5) (by decide +kernel) 3 (by decide +kernel)) (by decide +kernel)
  · exact absurd (h (standard.set 4 11).1 [("NETID", 7)] (Arises.standard.set 4 11)
      (by decide +kernel) (by decide +kernel) 4 (by decide +kernel)) (by decide +kernel)
  · exact absurd (h .standard twiceNamed twiceNamed.reverse .standard (by decide +kernel)
      (by decide +kernel) twiceNamed.reverse_perm) (by decide +kernel)

end Registers

end RadioModem
