import PagedMemory.Bus
import PagedMemory.Proofs.Contracts
import PagedMemory.Proofs.RamWords

/-!
# Regions do not meet

A device is attached only where it meets no other one. So at most one region holds an address, and
the region found for it does not depend on the order in which devices were attached.

- `Range.overlaps_iff`: ranges that are not empty overlap exactly when they share an address;
- `RegionTable.Sound`: the regions hold addresses, lie in RAM, and do not meet;
- `Sound.find?_eq_some_iff`: in a sound table the region found is the one that holds the address;
- `Bus.Reached.sound`: whatever is done to a bus, its table is sound;
- `Bus.attach_exclusive`: which devices are attached, and what the table is after any attempts.
-/

namespace PagedMemory

namespace Range

variable {r s : Range}

/-- No address lies in both ranges. -/
def Disjoint (r s : Range) : Prop := ∀ addr ∈ r, addr ∉ s

/-- A range that is not empty stops after its base. -/
theorem base_lt_stop (h : ¬ r.IsEmpty) : r.base.toNat < r.stop := by
  have hsize : r.size.toNat ≠ 0 := fun h0 => h (UInt32.toNat_inj.1 h0)
  rw [stop]
  omega

/-- Ranges that are not empty overlap exactly when they share an address. -/
theorem overlaps_iff (hr : ¬ r.IsEmpty) (hs : ¬ s.IsEmpty) :
    r.Overlaps s ↔ ∃ addr, addr ∈ r ∧ addr ∈ s := by
  have hr := base_lt_stop hr
  have hs := base_lt_stop hs
  constructor
  · rintro ⟨hrs, hsr⟩
    -- the base that comes last lies in both
    rcases Nat.le_total r.base.toNat s.base.toNat with hle | hle
    · exact ⟨s.base, mem_iff.2 ⟨hle, hsr⟩, mem_iff.2 ⟨Nat.le.refl, hs⟩⟩
    · exact ⟨r.base, mem_iff.2 ⟨Nat.le.refl, hr⟩, mem_iff.2 ⟨hle, hrs⟩⟩
  · rintro ⟨addr, haddr, haddr'⟩
    obtain ⟨hlow, hhigh⟩ := mem_iff.1 haddr
    obtain ⟨hlow', hhigh'⟩ := mem_iff.1 haddr'
    exact ⟨Nat.lt_of_le_of_lt hlow hhigh', Nat.lt_of_le_of_lt hlow' hhigh⟩

theorem not_overlaps_iff (hr : ¬ r.IsEmpty) (hs : ¬ s.IsEmpty) : ¬ r.Overlaps s ↔ r.Disjoint s := by
  rw [overlaps_iff hr hs, not_exists]
  exact forall_congr' fun addr => not_and

end Range

namespace RegionTable

variable {δ : Type} {table table' : RegionTable δ} {limit : Nat} {addr : UInt32} {i : Nat}
  {region : Region δ}

/-! ## What regions claim -/

/-- The names and ranges of the regions, in order. -/
def claims (table : RegionTable δ) : List (String × Range) :=
  table.regions.map fun region => (region.name, region.range)

/-- A device in a new state claims what it did before. -/
@[simp] theorem claims_setDevice (table : RegionTable δ) (i : Nat) (device : δ) :
    (table.setDevice i device).claims = table.claims := by
  apply List.ext_getElem?
  intro k
  rw [claims, claims, List.getElem?_map, List.getElem?_map, setDevice, List.getElem?_modify]
  cases table.regions[k]? with
  | none => rfl
  | some region =>
    show some _ = some _
    by_cases hik : i = k <;> simp [hik]

/-- Where the claims are the same, each region has its counterpart. -/
theorem exists_of_claims (h : table'.claims = table.claims) (hr : region ∈ table'.regions) :
    ∃ old ∈ table.regions, old.name = region.name ∧ old.range = region.range := by
  have hmem : (region.name, region.range) ∈ table.claims := h ▸ List.mem_map_of_mem hr
  obtain ⟨old, hold, heq⟩ := List.mem_map.1 hmem
  exact ⟨old, hold, congrArg Prod.fst heq, congrArg Prod.snd heq⟩

/-! ## Tables in which no regions meet -/

/-- Every region holds an address and ends at or below `limit`, and no two regions meet. -/
structure Sound (table : RegionTable δ) (limit : Nat) : Prop where
  inhabited : ∀ region ∈ table.regions, ¬ region.range.IsEmpty
  within : ∀ region ∈ table.regions, region.range.stop ≤ limit
  apart : table.regions.Pairwise fun r s => r.range.Disjoint s.range

theorem sound_empty (limit : Nat) : (empty : RegionTable δ).Sound limit where
  inhabited _ hregion := absurd hregion List.not_mem_nil
  within _ hregion := absurd hregion List.not_mem_nil
  apart := .nil

/-- Whether a table is sound depends on its claims alone. -/
theorem Sound.congr (h : table.Sound limit) (hc : table'.claims = table.claims) :
    table'.Sound limit where
  inhabited region hregion := by
    obtain ⟨old, hold, -, hrange⟩ := exists_of_claims hc hregion
    rw [← hrange]
    exact h.inhabited old hold
  within region hregion := by
    obtain ⟨old, hold, -, hrange⟩ := exists_of_claims hc hregion
    rw [← hrange]
    exact h.within old hold
  apart := by
    have hapart : table.claims.Pairwise fun c d => c.2.Disjoint d.2 := List.pairwise_map.2 h.apart
    rw [← hc, claims, List.pairwise_map] at hapart
    exact hapart

/-- No two places of a sound table hold the same address. -/
theorem Sound.place_unique (h : table.Sound limit) {j : Nat} {other : Region δ}
    (hi : table.regions[i]? = some region) (hj : table.regions[j]? = some other)
    (haddr : addr ∈ region.range) (haddr' : addr ∈ other.range) : i = j := by
  obtain ⟨hlt, rfl⟩ := List.getElem?_eq_some_iff.1 hi
  obtain ⟨hlt', rfl⟩ := List.getElem?_eq_some_iff.1 hj
  have hapart := List.pairwise_iff_getElem.1 h.apart
  rcases Nat.lt_trichotomy i j with hij | hij | hij
  · exact absurd haddr' (hapart i j hlt hlt' hij addr haddr)
  · exact hij
  · exact absurd haddr (hapart j i hlt' hlt hij addr haddr')

/-- In a sound table the region found is the one that holds the address. -/
theorem Sound.find?_eq_some_iff (h : table.Sound limit) :
    table.find? addr = some (i, region) ↔
      table.regions[i]? = some region ∧ addr ∈ region.range := by
  rw [find?, locate_eq_some_iff]
  constructor
  · rintro ⟨hi, haddr, -⟩
    exact ⟨hi, haddr⟩
  · rintro ⟨hi, haddr⟩
    refine ⟨hi, haddr, ?_⟩
    intro j hj other hother haddr'
    exact Nat.ne_of_lt hj (h.place_unique hother hi haddr' haddr)

/-! ## Room for a region -/

/-- The range holds an address, ends at or below `limit`, and meets no region in place. -/
def Admits (table : RegionTable δ) (limit : Nat) (range : Range) : Prop :=
  ¬ range.IsEmpty ∧ range.stop ≤ limit ∧ ∀ region ∈ table.regions, region.range.Disjoint range

/-- A region that meets no other one may be added. -/
theorem Sound.concat (h : table.Sound limit) (ha : table.Admits limit region.range) :
    (⟨table.regions ++ [region]⟩ : RegionTable δ).Sound limit where
  inhabited r hr := by
    rcases List.mem_append.1 hr with hr | hr
    · exact h.inhabited r hr
    · rw [List.mem_singleton.1 hr]
      exact ha.1
  within r hr := by
    rcases List.mem_append.1 hr with hr | hr
    · exact h.within r hr
    · rw [List.mem_singleton.1 hr]
      exact ha.2.1
  apart := by
    refine List.pairwise_append.2 ⟨h.apart, List.pairwise_singleton _ _, ?_⟩
    intro r hr s hs
    rw [List.mem_singleton.1 hs]
    exact ha.2.2 r hr

/-- No region in place overlaps a range exactly when none meets it. -/
theorem Sound.find?_overlaps_eq_none_iff (h : table.Sound limit) {range : Range}
    (hne : ¬ range.IsEmpty) :
    table.regions.find? (fun r => r.range.Overlaps range) = none ↔
      ∀ r ∈ table.regions, r.range.Disjoint range := by
  rw [List.find?_eq_none]
  refine forall₂_congr fun r hr => ?_
  rw [decide_eq_true_iff, Range.not_overlaps_iff (h.inhabited r hr) hne]

end RegionTable

namespace Bus

open RegionTable

variable {δ : Type} {bus bus' : Bus δ} {addr : UInt32} {i : Nat} {region : Region δ}

/-! ## Addresses that no device serves -/

/-- No region holds the address. -/
def Unclaimed (bus : Bus δ) (addr : UInt32) : Prop :=
  ∀ region ∈ bus.table.regions, addr ∉ region.range

instance (bus : Bus δ) (addr : UInt32) : Decidable (bus.Unclaimed addr) :=
  inferInstanceAs (Decidable (∀ region ∈ bus.table.regions, addr ∉ region.range))

theorem unclaimed_iff : bus.Unclaimed addr ↔ bus.table.find? addr = none :=
  locate_eq_none_iff.symm

/-- Whether a device serves an address depends on the claims alone. -/
theorem Unclaimed.congr (h : bus.Unclaimed addr) (hc : bus'.table.claims = bus.table.claims) :
    bus'.Unclaimed addr := by
  intro region hregion
  obtain ⟨old, hold, -, hrange⟩ := exists_of_claims hc hregion
  rw [← hrange]
  exact h old hold

/-! ## Attaching a device -/

/-- A device that is admitted gets the next place. -/
theorem run_attach_of_admits (h : bus.table.Sound bus.ram.size)
    (ha : bus.table.Admits bus.ram.size region.range) :
    (attach region).run bus = ⟨.ok bus.table.regions.length,
      ⟨bus.ram, ⟨bus.table.regions ++ [region]⟩⟩, [.attached region.name region.range]⟩ := by
  obtain ⟨hne, hstop, hdisjoint⟩ := ha
  have hfind := (h.find?_overlaps_eq_none_iff hne).2 hdisjoint
  have htop : region.range.stop ≤ UInt32.size := Nat.le_trans hstop bus.ram.size_bounds.2
  simp [attach, hstop, RegionTable.attach, hne, htop, hfind, RegionTable.size]

/-- A device that is not admitted changes nothing. -/
theorem run_attach_of_not_admits (h : bus.table.Sound bus.ram.size)
    (ha : ¬ bus.table.Admits bus.ram.size region.range) :
    ∃ e, (attach region).run bus = ⟨.error e, bus, []⟩ := by
  by_cases hstop : region.range.stop ≤ bus.ram.size
  · by_cases hne : ¬ region.range.IsEmpty ∧ region.range.stop ≤ UInt32.size
    · cases hfind : bus.table.regions.find? fun r => r.range.Overlaps region.range with
      | none =>
        have hdisjoint := (h.find?_overlaps_eq_none_iff hne.1).1 hfind
        exact absurd ⟨hne.1, hstop, hdisjoint⟩ ha
      | some existing =>
        refine ⟨.overlap region.range existing.name, ?_⟩
        simp [attach, hstop, RegionTable.attach, hne, hfind]
    · refine ⟨.badRange region.range, ?_⟩
      simp [attach, hstop, RegionTable.attach, hne]
  · refine ⟨.badRange region.range, ?_⟩
    simp [attach, hstop]

/-- Attaching succeeds exactly where the device is admitted. -/
theorem attach_succeeds_iff (h : bus.table.Sound bus.ram.size) :
    (∃ i, ((attach region).run bus).result = .ok i) ↔
      bus.table.Admits bus.ram.size region.range := by
  by_cases ha : bus.table.Admits bus.ram.size region.range
  · rw [run_attach_of_admits h ha]
    exact iff_of_true ⟨_, rfl⟩ ha
  · obtain ⟨e, hrun⟩ := run_attach_of_not_admits h ha
    rw [hrun]
    refine iff_of_false ?_ ha
    rintro ⟨i, hi⟩
    cases hi

/-- Attaching that fails changes nothing. -/
theorem state_attach_of_error (h : bus.table.Sound bus.ram.size) {e : Error}
    (he : ((attach region).run bus).result = .error e) : ((attach region).run bus).state = bus := by
  by_cases ha : bus.table.Admits bus.ram.size region.range
  · rw [run_attach_of_admits h ha] at he
    cases he
  · obtain ⟨e, hrun⟩ := run_attach_of_not_admits h ha
    rw [hrun]

/-! ## Buses in use -/

section

variable [Device δ]

/-- A read leaves RAM and all claims as they are. -/
theorem read_frame (bus : Bus δ) (addr : UInt32) (len : Nat) :
    ((read addr len).run bus).state.ram = bus.ram ∧
      ((read addr len).run bus).state.table.claims = bus.table.claims := by
  cases hw : bus.ram.checkWord addr len with
  | error e =>
    rw [run_read_of_refused hw]
    exact ⟨rfl, rfl⟩
  | ok u =>
    cases hf : bus.table.find? addr with
    | none =>
      rw [run_read_of_not_find hw hf]
      exact ⟨rfl, rfl⟩
    | some found =>
      rw [run_read_of_find hw hf]
      exact ⟨rfl, claims_setDevice _ _ _⟩

/-- A write leaves the size of RAM and all claims as they are. -/
theorem write_frame (bus : Bus δ) (addr : UInt32) (len : Nat) (data : UInt32) :
    ((write addr len data).run bus).state.ram.size = bus.ram.size ∧
      ((write addr len data).run bus).state.table.claims = bus.table.claims := by
  cases hw : bus.ram.checkWord addr len with
  | error e =>
    rw [run_write_of_refused hw]
    exact ⟨rfl, rfl⟩
  | ok u =>
    cases hf : bus.table.find? addr with
    | none =>
      rw [run_write_of_not_find hw hf]
      exact ⟨Ram.size_store _ _ _, rfl⟩
    | some found =>
      rw [run_write_of_find hw hf]
      exact ⟨rfl, claims_setDevice _ _ _⟩

/-- The buses that can come about: devices are attached to RAM, words are read and written, and RAM
is written past all devices. -/
inductive Reached : Bus δ → Prop
  | ofRam (ram : Ram) : Reached (Bus.ofRam ram : Bus δ)
  | attach {bus : Bus δ} (h : Reached bus) (region : Region δ) :
    Reached ((attach region).run bus).state
  | read {bus : Bus δ} (h : Reached bus) (addr : UInt32) (len : Nat) :
    Reached ((read addr len).run bus).state
  | write {bus : Bus δ} (h : Reached bus) (addr : UInt32) (len : Nat) (data : UInt32) :
    Reached ((write addr len data).run bus).state
  | poke {bus : Bus δ} (h : Reached bus) {ram : Ram} (hsize : ram.size = bus.ram.size) :
    Reached ⟨ram, bus.table⟩

omit [Device δ] in
/-- Attaching a device keeps the table sound, whatever comes of it. -/
theorem sound_attach (h : bus.table.Sound bus.ram.size) (region : Region δ) :
    ((attach region).run bus).state.table.Sound ((attach region).run bus).state.ram.size := by
  by_cases ha : bus.table.Admits bus.ram.size region.range
  · rw [run_attach_of_admits h ha]
    exact h.concat ha
  · obtain ⟨e, hrun⟩ := run_attach_of_not_admits h ha
    rw [hrun]
    exact h

/-- Whatever is done to a bus, its table is sound. Induction on what is done. -/
theorem Reached.sound (h : bus.Reached) : bus.table.Sound bus.ram.size := by
  induction h with
  | ofRam ram => exact sound_empty _
  | attach h region ih => exact sound_attach ih region
  | @read bus h addr len ih =>
    obtain ⟨hram, hclaims⟩ := read_frame bus addr len
    rw [hram]
    exact ih.congr hclaims
  | @write bus h addr len data ih =>
    obtain ⟨hsize, hclaims⟩ := write_frame bus addr len data
    rw [hsize]
    exact ih.congr hclaims
  | poke h hsize ih =>
    rw [← hsize] at ih
    exact ih

end

/-! ## Any number of attempts -/

/-- The regions that were attached, in order. -/
def attached (log : List (Region δ × Except Error Nat)) : List (Region δ) :=
  log.filterMap fun
    | (region, .ok _) => some region
    | (_, .error _) => none

/-- What attempts to attach devices make of a bus: those that succeed are added, each under the
place that it was answered. -/
structure Attaching (bus after : Bus δ) (log : List (Region δ × Except Error Nat)) : Prop where
  sound : after.table.Sound bus.ram.size
  ram : after.ram = bus.ram
  regions : after.table.regions = bus.table.regions ++ attached log
  place : ∀ region i, (region, .ok i) ∈ log → after.table.regions[i]? = some region

/-- One more attempt. -/
theorem Attaching.attach {after : Bus δ} {log : List (Region δ × Except Error Nat)}
    (h : Attaching bus after log) (region : Region δ) :
    Attaching bus ((attach region).run after).state
      (log ++ [(region, ((attach region).run after).result)]) := by
  have hsound : after.table.Sound after.ram.size := h.ram ▸ h.sound
  by_cases ha : after.table.Admits after.ram.size region.range
  · rw [run_attach_of_admits hsound ha]
    rw [h.ram] at ha
    refine ⟨h.sound.concat ha, h.ram, ?_, ?_⟩
    · show after.table.regions ++ [region] = _
      rw [h.regions, attached, attached, List.filterMap_append, List.append_assoc]
      rfl
    · intro r i hr
      show (after.table.regions ++ [region])[i]? = some r
      rcases List.mem_append.1 hr with hr | hr
      · have hi := h.place r i hr
        rw [List.getElem?_append_left (List.getElem?_eq_some_iff.1 hi).1, hi]
      · cases List.mem_singleton.1 hr
        exact List.getElem?_concat_length
  · obtain ⟨e, hrun⟩ := run_attach_of_not_admits hsound ha
    rw [hrun]
    refine ⟨h.sound, h.ram, ?_, ?_⟩
    · rw [h.regions, attached, attached, List.filterMap_append]
      exact congrArg _ (List.append_nil _).symm
    · intro r i hr
      rcases List.mem_append.1 hr with hr | hr
      · exact h.place r i hr
      · cases List.mem_singleton.1 hr

theorem attaching_runAll (h : bus.table.Sound bus.ram.size) (regions : List (Region δ)) :
    Attaching bus (Op.runAll attach bus regions).1 (Op.runAll attach bus regions).2 :=
  Op.runAll_invariant (I := Attaching bus)
    ⟨h, rfl, (List.append_nil _).symm, fun _ _ hmem => absurd hmem List.not_mem_nil⟩
    (fun _ _ region hlog => hlog.attach region) regions

variable [Device δ]

/-- A device is attached exactly where it meets no other one, and otherwise nothing changes. After
any attempts the regions are those that were there, and those that were attached, each in the place
that was answered; they do not meet, and an address belongs to the one that holds it. -/
theorem attach_exclusive (hbus : bus.Reached) (regions : List (Region δ)) :
    let after := (Op.runAll attach bus regions).1
    let log := (Op.runAll attach bus regions).2
    (∀ region : Region δ, let o := (attach region).run after
      ((∃ i, o.result = .ok i) ↔ ¬ region.range.IsEmpty ∧ region.range.stop ≤ bus.ram.size ∧
        ∀ r ∈ after.table.regions, ¬ ∃ addr, addr ∈ r.range ∧ addr ∈ region.range) ∧
      (∀ e, o.result = .error e → o.state = after)) ∧
    after.table.regions = bus.table.regions ++ attached log ∧
    (∀ region ∈ after.table.regions,
      ¬ region.range.IsEmpty ∧ region.range.stop ≤ bus.ram.size) ∧
    (after.table.regions.Pairwise fun r s => ∀ addr ∈ r.range, addr ∉ s.range) ∧
    (∀ region i, (region, .ok i) ∈ log → after.table.regions[i]? = some region) ∧
    ∀ addr i, after.owner? addr = some i ↔
      ∃ region, after.table.regions[i]? = some region ∧ addr ∈ region.range := by
  have h := attaching_runAll hbus.sound regions
  generalize Op.runAll attach bus regions = run at h ⊢
  obtain ⟨after, log⟩ := run
  have hsound : after.table.Sound after.ram.size := h.ram ▸ h.sound
  refine ⟨?_, h.regions, fun r hr => ⟨h.sound.inhabited r hr, h.sound.within r hr⟩, h.sound.apart,
    h.place, ?_⟩
  · intro region
    refine ⟨?_, fun e => state_attach_of_error hsound⟩
    rw [attach_succeeds_iff hsound, Admits, h.ram]
    simp only [Range.Disjoint, not_exists, not_and]
  · intro addr i
    simp only [owner?, Option.map_eq_some_iff, Prod.exists, h.sound.find?_eq_some_iff]
    constructor
    · rintro ⟨_, region, hregion, rfl⟩
      exact ⟨region, hregion⟩
    · rintro ⟨region, hregion⟩
      exact ⟨i, region, hregion, rfl⟩

/-- Three devices, of which the second meets the first, and the third begins where the first ends. -/
def threeDevices : List (Region RegisterDevice) :=
  [⟨"screen", ⟨0x1000, 0x100⟩, ⟨.latch, 0⟩⟩, ⟨"clock", ⟨0x10ff, 0x10⟩, ⟨.counter, 0⟩⟩,
    ⟨"serial", ⟨0x1100, 0x10⟩, ⟨.echo, 0⟩⟩]

/-- The second device is refused, and the third one gets the place after the first. -/
theorem attach_exclusive_threeDevices : ∃ ram : Ram,
    let bus : Bus RegisterDevice := .ofRam ram
    let after := (Op.runAll attach bus threeDevices).1
    bus.Reached ∧ after.table.regions.map (·.name) = ["screen", "serial"] ∧
      after.owner? 0x10ff = some 0 ∧ after.owner? 0x1100 = some 1 := by
  obtain ⟨ram, hzero⟩ : ∃ ram, Ram.zeroed 65536 = .ok ram := ⟨_, rfl⟩
  have hsize := Ram.size_of_zeroed hzero
  have hreached : (Bus.ofRam ram : Bus RegisterDevice).Reached := .ofRam ram
  obtain ⟨-, -, -, -, -, howner⟩ := attach_exclusive hreached threeDevices
  have hregions : (Op.runAll attach (Bus.ofRam ram) threeDevices).1.table.regions =
      [⟨"screen", ⟨0x1000, 0x100⟩, ⟨.latch, 0⟩⟩, ⟨"serial", ⟨0x1100, 0x10⟩, ⟨.echo, 0⟩⟩] := by
    simp [Op.runAll, threeDevices, attach, RegionTable.attach, Bus.ofRam, RegionTable.empty,
      Range.stop, Range.IsEmpty, Range.Overlaps, hsize, UInt32.size]
  rw [hregions] at howner
  refine ⟨ram, hreached, ?_, (howner 0x10ff 0).2 ⟨_, rfl, by decide⟩,
    (howner 0x1100 1).2 ⟨_, rfl, by decide⟩⟩
  rw [hregions]
  rfl

end Bus

end PagedMemory
