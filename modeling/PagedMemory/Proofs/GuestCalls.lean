import PagedMemory.Machine
import PagedMemory.Proofs.Contracts
import PagedMemory.Proofs.WalkPath

/-!
# Calls of a guest

A guest reads, writes and translates virtual addresses; a call that fails does not stop it. Each
call is three steps: it must not cross a page, it is translated, and it reaches the bus. With paging
on and no device in the tables, the first two steps are a function of RAM.

- `GuestCall.session`: calls under the same registers, one after the other;
- `run_perform`: a call as its path, the marks that the walk leaves, and an access to the bus;
- `reach_congr`: the access does not depend on bytes that it does not cover;
- `Steady.perform`: a call that leads out of the tables changes no page but the one it leads to.
-/

namespace PagedMemory

namespace Op

variable {σ α : Type}

/-- Runs an operation and answers how it ended. -/
def attempt (op : Op σ α) : Op σ (Except Error α) := ⟨fun s =>
  ⟨.ok (op.run s).result, (op.run s).state, (op.run s).events⟩⟩

end Op

/-- What a guest asks of its machine. -/
inductive GuestCall
  | read (vaddr : UInt32) (len : Nat)
  | write (vaddr : UInt32) (len : Nat) (data : UInt32)
  | translate (access : Access) (vaddr : UInt32)

namespace RegionTable

variable {δ : Type} {table : RegionTable δ}

/-- A device in a new state serves the same addresses. -/
theorem find?_setDevice_eq_none {addr : UInt32} (h : table.find? addr = none) (i : Nat)
    (device : δ) : (table.setDevice i device).find? addr = none := by
  rw [find?, locate_eq_none_iff] at h ⊢
  intro region hregion
  obtain ⟨k, hk⟩ := List.getElem?_of_mem hregion
  rw [setDevice, List.getElem?_modify, Option.map_eq_map, Option.map_eq_some_iff] at hk
  obtain ⟨old, hold, rfl⟩ := hk
  have hnot := h old (List.mem_of_getElem? hold)
  split <;> exact hnot

theorem setDevice_empty (i : Nat) (device : δ) :
    (empty : RegionTable δ).setDevice i device = .empty := by
  simp [setDevice, empty]

end RegionTable

namespace GuestCall

variable {δ : Type} [Device δ]

/-- Makes a call under the registers. A read answers the word, a translation the address. -/
def perform (regs : Registers) : GuestCall → Op (Machine δ) (Option UInt32)
  | .read vaddr len => some <$> Machine.read regs vaddr len
  | .write vaddr len data => (fun _ => none) <$> Machine.write regs vaddr len data
  | .translate access vaddr => some <$> Machine.translate regs access vaddr

/-- Makes calls one after the other, whatever comes of each. -/
def session (regs : Registers) (calls : List GuestCall) :
    Op (Machine δ) (List (Except Error (Option UInt32))) :=
  .collect (fun call => (call.perform regs).attempt) calls

/-! ## The steps of a call -/

def vaddr : GuestCall → UInt32
  | .read vaddr _ | .write vaddr _ _ | .translate _ vaddr => vaddr

/-- How many bytes the call is about; a translation is about none. -/
def len : GuestCall → Nat
  | .read _ len | .write _ len _ => len
  | .translate _ _ => 0

def access : GuestCall → Access
  | .read _ _ => .read
  | .write _ _ _ => .write
  | .translate access _ => access

/-- What is left of a call once its address was translated to `p`. -/
def reach (p : UInt32) : GuestCall → Op (Bus δ) (Option UInt32)
  | .read _ len => some <$> Bus.read p len
  | .write _ len data => (fun _ => none) <$> Bus.write p len data
  | .translate _ _ => pure (some p)

omit [Device δ] in
theorem map_onBus {α β : Type} (f : α → β) (op : Op (Bus δ) α) :
    f <$> Machine.onBus op = Machine.onBus (f <$> op) := by
  ext1 m
  rw [Op.run_map, Machine.run_onBus, Machine.run_onBus, Op.run_map]
  rcases op.run m.bus with ⟨_ | a, bus, es⟩
  · rfl
  · simp

/-- A call is three steps. -/
theorem perform_eq (regs : Registers) (call : GuestCall) :
    (call.perform regs : Op (Machine δ) (Option UInt32)) = (do
      Machine.checkCrossing call.vaddr call.len
      let p ← Machine.translate regs call.access call.vaddr
      Machine.onBus (call.reach p)) := by
  cases call with
  | read vaddr len =>
    simp only [perform, Machine.read, map_bind, map_onBus]
    rfl
  | write vaddr len data =>
    simp only [perform, Machine.write, map_bind, map_onBus]
    rfl
  | translate access vaddr =>
    have hlen : Page.Within vaddr 0 := .inl rfl
    show _ = (Machine.checkCrossing vaddr 0 >>= fun _ => Machine.translate regs access vaddr >>= _)
    rw [Machine.checkCrossing, if_pos hlen, pure_bind]
    exact map_eq_pure_bind _ _

/-- The machine after the walk of a call, if that leads somewhere. -/
def afterWalk (regs : Registers) (call : GuestCall) (m : Machine δ) : Machine δ :=
  ⟨⟨m.bus.ram.tracked regs.directory m.tracking call.access call.vaddr, m.bus.table⟩, m.tracking⟩

/-- A call with paging on, where no device serves the tables. -/
theorem run_perform {regs : Registers} (hp : regs.pagingEnabled = true) (call : GuestCall)
    {m : Machine δ}
    (hd : m.bus.table.find? (Entry.directorySlot regs.directory call.vaddr) = none)
    (ht : m.bus.ram.Fits (Entry.directorySlot regs.directory call.vaddr) 4 →
      (m.bus.ram.pde regs.directory call.vaddr).has .present = true → m.bus.table.find?
        (Entry.tableSlot (m.bus.ram.pde regs.directory call.vaddr).frame call.vaddr) = none) :
    (call.perform regs).run m =
      if Page.Within call.vaddr call.len then
        match m.bus.ram.path regs.directory call.vaddr with
        | .error e => ⟨.error e, m, []⟩
        | .ok p =>
          ((Machine.onBus (call.reach p)).run (call.afterWalk regs m)).after
            [.walked call.access call.vaddr
              ((m.bus.ram.pde regs.directory call.vaddr).touched .read)
              ((m.bus.ram.pte regs.directory call.vaddr).touched call.access) p]
      else ⟨.error (.crossesPage call.vaddr call.len), m,
        [.crossingRefused call.vaddr call.len]⟩ := by
  rw [perform_eq, Op.run_bind, Machine.checkCrossing]
  by_cases hw : Page.Within call.vaddr call.len
  · have htranslate : (Machine.translate regs call.access call.vaddr).run m =
        (Machine.onBus (Bus.walk regs.directory m.tracking call.access call.vaddr)).run m := by
      rw [Machine.translate, Op.run_bind, Op.run_ask, Outcome.andThen_ok, Outcome.after_nil,
        Bus.translate, if_pos hp]
    rw [if_pos hw, if_pos hw, Op.run_pure, Outcome.andThen_ok, Outcome.after_nil, Op.run_bind,
      htranslate, Machine.run_onBus, Bus.run_walk hd ht]
    rcases m.bus.ram.path regs.directory call.vaddr with e | p
    · rfl
    · rfl
  · rw [if_neg hw, if_neg hw]
    rfl

theorem run_session_cons (regs : Registers) (call : GuestCall) (calls : List GuestCall)
    (m : Machine δ) :
    (session regs (call :: calls)).run m =
      ⟨((session regs calls).run ((call.perform regs).run m).state).result.map
          (((call.perform regs).run m).result :: ·),
        ((session regs calls).run ((call.perform regs).run m).state).state,
        ((call.perform regs).run m).events ++
          ((session regs calls).run ((call.perform regs).run m).state).events⟩ := by
  rw [session, Op.collect_cons, Op.run_bind]
  show Outcome.andThen ⟨.ok ((call.perform regs).run m).result, _, _⟩ _ = _
  rw [Outcome.andThen_ok]
  show ((session regs calls >>= _).run _).after _ = _
  rw [Op.run_bind]
  rcases (session regs calls).run ((call.perform regs).run m).state with ⟨_ | rs, m', es⟩
  · rfl
  · simp [Except.map]

/-! ## What reaches the bus -/

theorem checkWord_congr {ram ram' : Ram} (h : ram'.size = ram.size) (addr : UInt32) (len : Nat) :
    ram'.checkWord addr len = ram.checkWord addr len := by
  have hfits : ram'.Fits addr len ↔ ram.Fits addr len := by rw [Ram.Fits, Ram.Fits, h]
  rw [Ram.checkWord, Ram.checkWord, Ram.check, Ram.check]
  by_cases hf : ram.Fits addr len
  · rw [if_pos hf, if_pos (hfits.2 hf)]
  · rw [if_neg hf, if_neg (fun h => hf (hfits.1 h))]

/-- Two accesses that differ in RAM alone: they end the same way, do the same to devices, and store
the same bytes, or none. -/
structure SameReach (call : GuestCall) (p : UInt32) (bus bus' : Bus δ) : Prop where
  result : ((call.reach p).run bus').result = ((call.reach p).run bus).result
  events : ((call.reach p).run bus').events = ((call.reach p).run bus).events
  table : ((call.reach p).run bus').state.table = ((call.reach p).run bus).state.table
  device : ((call.reach p).run bus).state.table = bus.table ∨
    ∃ i device, ((call.reach p).run bus).state.table = bus.table.setDevice i device
  ram : (((call.reach p).run bus).state.ram = bus.ram ∧
      ((call.reach p).run bus').state.ram = bus'.ram) ∨
    ∃ bytes, bytes.length = call.len ∧ bus.ram.Fits p call.len ∧
      ((call.reach p).run bus).state.ram = bus.ram.store p.toNat bytes ∧
      ((call.reach p).run bus').state.ram = bus'.ram.store p.toNat bytes

theorem SameReach.of_runs {call : GuestCall} {p : UInt32} {bus bus' s s' : Bus δ}
    {r : Except Error (Option UInt32)} {es : List Event}
    (h : (call.reach p).run bus = ⟨r, s, es⟩) (h' : (call.reach p).run bus' = ⟨r, s', es⟩)
    (ht : s'.table = s.table)
    (hd : s.table = bus.table ∨ ∃ i device, s.table = bus.table.setDevice i device)
    (hr : (s.ram = bus.ram ∧ s'.ram = bus'.ram) ∨
      ∃ bytes, bytes.length = call.len ∧ bus.ram.Fits p call.len ∧
        s.ram = bus.ram.store p.toNat bytes ∧ s'.ram = bus'.ram.store p.toNat bytes) :
    SameReach call p bus bus' where
  result := by rw [h, h']
  events := by rw [h, h']
  table := by rw [h, h', ht]
  device := by rw [h]; exact hd
  ram := by rw [h, h']; exact hr

/-- An access attaches no device. -/
theorem SameReach.free {call : GuestCall} {p addr : UInt32} {bus bus' : Bus δ}
    (h : SameReach call p bus bus') (hf : bus.table.find? addr = none) :
    ((call.reach p).run bus).state.table.find? addr = none := by
  rcases h.device with ht | ⟨i, device, ht⟩
  · rw [ht, hf]
  · rw [ht]
    exact RegionTable.find?_setDevice_eq_none hf i device

/-- An access does not depend on bytes that it does not cover. -/
theorem reach_congr (call : GuestCall) {p : UInt32} {bus bus' : Bus δ}
    (ht : bus'.table = bus.table) (hs : bus'.ram.size = bus.ram.size)
    (hb : bus'.ram.slice p.toNat call.len = bus.ram.slice p.toNat call.len) :
    SameReach call p bus bus' := by
  -- the checks read the size of RAM alone, and a device is found by the address alone
  have hc : ∀ len, bus'.ram.checkWord p len = bus.ram.checkWord p len := checkWord_congr hs p
  have hfind : bus'.table.find? p = bus.table.find? p := by rw [ht]
  cases call with
  | translate access vaddr => exact .of_runs rfl rfl ht (.inl rfl) (.inl ⟨rfl, rfl⟩)
  | read vaddr len =>
    cases hw : bus.ram.checkWord p len with
    | error e =>
      have h := Bus.run_read_of_refused hw
      have h' := Bus.run_read_of_refused ((hc len).trans hw)
      exact .of_runs (Op.run_map_of_error h) (Op.run_map_of_error h') ht (.inl rfl)
        (.inl ⟨rfl, rfl⟩)
    | ok u =>
      cases hf : bus.table.find? p with
      | none =>
        have h := Bus.run_read_of_not_find hw hf
        have h' := Bus.run_read_of_not_find ((hc len).trans hw) (hfind.trans hf)
        rw [show bus'.ram.slice p.toNat len = bus.ram.slice p.toNat len from hb] at h'
        exact .of_runs (Op.run_map_of_ok h) (Op.run_map_of_ok h') ht (.inl rfl)
          (.inl ⟨rfl, rfl⟩)
      | some found =>
        have h := Bus.run_read_of_find hw hf
        have h' := Bus.run_read_of_find ((hc len).trans hw) (hfind.trans hf)
        rw [ht] at h'
        exact .of_runs (Op.run_map_of_ok h) (Op.run_map_of_ok h') rfl
          (.inr ⟨_, _, rfl⟩) (.inl ⟨rfl, rfl⟩)
  | write vaddr len data =>
    cases hw : bus.ram.checkWord p len with
    | error e =>
      have h := Bus.run_write_of_refused hw data
      have h' := Bus.run_write_of_refused ((hc len).trans hw) data
      exact .of_runs (Op.run_map_of_error h) (Op.run_map_of_error h') ht (.inl rfl)
        (.inl ⟨rfl, rfl⟩)
    | ok u =>
      cases hf : bus.table.find? p with
      | none =>
        have h := Bus.run_write_of_not_find hw hf data
        have h' := Bus.run_write_of_not_find ((hc len).trans hw) (hfind.trans hf) data
        exact .of_runs (Op.run_map_of_ok h) (Op.run_map_of_ok h') ht (.inl rfl)
          (.inr ⟨_, Word.length_bytes _ _, (Ram.checkWord_eq_ok_iff.1 hw).2, rfl, rfl⟩)
      | some found =>
        have h := Bus.run_write_of_find hw hf data
        have h' := Bus.run_write_of_find ((hc len).trans hw) (hfind.trans hf) data
        rw [ht] at h'
        exact .of_runs (Op.run_map_of_ok h) (Op.run_map_of_ok h') rfl
          (.inr ⟨_, _, rfl⟩) (.inl ⟨rfl, rfl⟩)

/-! ## Calls that stay out of the tables -/

section

open Ram

variable {T : Nat → Prop} {ram : Ram} {regs : Registers} {m : Machine δ} {call : GuestCall}
  {p : UInt32}

omit [Device δ] in
/-- The tables of the machine are those of `ram` but for marks, and no device serves them. -/
structure Steady (T : Nat → Prop) (ram : Ram) (m : Machine δ) : Prop where
  alike : AlikeOn T ram m.bus.ram
  free : ∀ addr, T (Page.number addr) → m.bus.table.find? addr = none

/-- Where a call leads does not depend on marks. -/
theorem Steady.run_perform (h : Steady T ram m) (hs : TablesIn T ram regs.directory)
    (hp : regs.pagingEnabled = true) (call : GuestCall) :
    (call.perform regs).run m =
      if Page.Within call.vaddr call.len then
        match ram.path regs.directory call.vaddr with
        | .error e => ⟨.error e, m, []⟩
        | .ok p =>
          ((Machine.onBus (call.reach p)).run (call.afterWalk regs m)).after
            [.walked call.access call.vaddr
              ((m.bus.ram.pde regs.directory call.vaddr).touched .read)
              ((m.bus.ram.pte regs.directory call.vaddr).touched call.access) p]
      else ⟨.error (.crossesPage call.vaddr call.len), m,
        [.crossingRefused call.vaddr call.len]⟩ := by
  rw [← path_eq_of_alikeOn hs h.alike]
  refine GuestCall.run_perform hp call (h.free _ ?_) fun hfit hpresent => h.free _ ?_
  · rw [Page.number, Entry.directorySlot_div hs.aligned]
    exact hs.top
  · -- marks do not move a table, so it is where `ram` has it
    have hpde := h.alike.pde hs call.vaddr
    rw [Page.number, Entry.tableSlot_div (Entry.aligned_frame _), hpde.frame]
    exact hs.table call.vaddr ((h.alike.fits _ _).1 hfit) (hpde.present ▸ hpresent)

/-- A call that leads somewhere reaches the bus there. -/
theorem Steady.run_perform_of_path (h : Steady T ram m) (hs : TablesIn T ram regs.directory)
    (hp : regs.pagingEnabled = true) (call : GuestCall) (hw : Page.Within call.vaddr call.len)
    (hpath : ram.path regs.directory call.vaddr = .ok p) :
    ∃ es, (call.perform regs).run m =
      ((Machine.onBus (call.reach p)).run (call.afterWalk regs m)).after es := by
  rw [h.run_perform hs hp, if_pos hw, hpath]
  exact ⟨_, rfl⟩

omit [Device δ] in
/-- Walks leave marks alone, and none outside the tables. -/
theorem Steady.afterWalk (h : Steady T ram m) (hs : TablesIn T ram regs.directory)
    (hpath : ram.path regs.directory call.vaddr = .ok p) :
    Steady T ram (call.afterWalk regs m) ∧
      ∀ b, ¬ T (b / 4096) → (call.afterWalk regs m).bus.ram.byte b = m.bus.ram.byte b :=
  ⟨⟨h.alike.tracked hs hpath _ _, h.free⟩, fun _ hb => byte_tracked_of_not h.alike hs hpath hb⟩

/-- An access out of the tables leaves them steady, and changes no bytes but those it covers. -/
theorem Steady.reach (h : Steady T ram m)
    (hout : ∀ j, p.toNat ≤ j → j < p.toNat + call.len → ¬ T (j / 4096)) :
    Steady T ram ((Machine.onBus (call.reach p)).run m).state ∧
      (∀ b, b < p.toNat ∨ p.toNat + call.len ≤ b →
        ((Machine.onBus (call.reach p)).run m).state.bus.ram.byte b = m.bus.ram.byte b) ∧
      (m.bus.table = .empty → ((Machine.onBus (call.reach p)).run m).state.bus.table = .empty) := by
  have hsame : SameReach call p m.bus m.bus := reach_congr call rfl rfl rfl
  have hfree : ∀ addr, T (Page.number addr) →
      ((call.reach p).run m.bus).state.table.find? addr = none :=
    fun addr ha => hsame.free (h.free addr ha)
  have hempty : m.bus.table = .empty → ((call.reach p).run m.bus).state.table = .empty := by
    intro hm
    rcases hsame.device with ht | ⟨i, device, ht⟩
    · rw [ht, hm]
    · rw [ht, hm, RegionTable.setDevice_empty]
  rw [Machine.run_onBus]
  rcases hsame.ram with ⟨hr, -⟩ | ⟨bytes, hlen, hfit, hr, -⟩
  · refine ⟨⟨?_, hfree⟩, ?_, hempty⟩
    · rw [hr]
      exact h.alike
    · intro b _
      rw [hr]
  · have hfit : p.toNat + bytes.length ≤ m.bus.ram.size := hlen ▸ hfit
    rw [← hlen] at hout ⊢
    refine ⟨⟨?_, hfree⟩, ?_, hempty⟩
    · rw [hr]
      exact h.alike.store hfit hout
    · intro b hb
      rw [hr]
      exact byte_store_of_outside hfit hb

/-- A call that leads out of the tables leaves them steady, and changes no page but the one to which
it leads. -/
theorem Steady.perform (h : Steady T ram m) (hs : TablesIn T ram regs.directory)
    (hp : regs.pagingEnabled = true)
    (hout : ∀ p, ram.path regs.directory call.vaddr = .ok p → ¬ T (Page.number p)) :
    Steady T ram ((call.perform regs).run m).state ∧
      (∀ b, ¬ T (b / 4096) →
        (∀ p, ram.path regs.directory call.vaddr = .ok p → Page.number p ≠ b / 4096) →
        ((call.perform regs).run m).state.bus.ram.byte b = m.bus.ram.byte b) ∧
      (m.bus.table = .empty → ((call.perform regs).run m).state.bus.table = .empty) := by
  rw [h.run_perform hs hp]
  by_cases hw : Page.Within call.vaddr call.len
  · rw [if_pos hw]
    cases hpath : ram.path regs.directory call.vaddr with
    | error e => exact ⟨h, fun _ _ _ => rfl, fun hm => hm⟩
    | ok p =>
      have hdiv : ∀ j, p.toNat ≤ j → j < p.toNat + call.len → j / 4096 = Page.number p :=
        fun j => div_of_path hpath hw
      obtain ⟨hwalk, hbyte⟩ := h.afterWalk hs hpath
      have hfar : ∀ j, p.toNat ≤ j → j < p.toNat + call.len → ¬ T (j / 4096) := by
        intro j hj hj'
        rw [hdiv j hj hj']
        exact hout p hpath
      obtain ⟨hreach, hbyte', hempty⟩ := hwalk.reach hfar
      refine ⟨hreach, ?_, hempty⟩
      intro b hb hne
      -- the call does not cross a page, so all that it covers is in the page to which it leads
      have hoff : b < p.toNat ∨ p.toNat + call.len ≤ b := by
        refine Decidable.byContradiction fun hin => hne p rfl ?_
        exact (hdiv b (by omega) (by omega)).symm
      exact (hbyte' b hoff).trans (hbyte b hb)
  · rw [if_neg hw]
    exact ⟨h, fun _ _ _ => rfl, fun hm => hm⟩

end

end GuestCall

end PagedMemory
