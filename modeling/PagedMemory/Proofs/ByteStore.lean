import Mathlib.Algebra.Group.Nat.Defs
import PagedMemory.Proofs.RegionTables

/-!
# The bus keeps what was written last

Calls on a bus go to one place each: to the device whose region holds the first address, or to RAM.
RAM is read as what the calls before have written to it, byte by byte, and where they have not
written, as it was at the start.

- `BusCall.perform`: a call on the bus;
- `lastPut`: the byte that calls have put somewhere, read off the calls and how they ended;
- `Remembers.perform`: one more call, and what is remembered after it;
- `bus_lastWriter`: after any calls, what becomes of one more.
-/

namespace PagedMemory

namespace Word

/-- The bytes of a word, from the lowest on. -/
theorem getElem?_bytes {n k : Nat} (h : k < n) (v : Nat) :
    (bytes n v)[k]? = some (UInt8.ofNat (v / 256 ^ k)) := by
  induction n generalizing k v with
  | zero => exact absurd h (Nat.not_lt_zero k)
  | succ n ih =>
    cases k with
    | zero => simp [bytes]
    | succ k =>
      rw [bytes, List.getElem?_cons_succ, ih (Nat.lt_of_succ_lt_succ h), Nat.div_div_eq_div_mul,
        Nat.pow_succ']

/-- A number is read off its bytes, and they off the number. -/
theorem ofNat_ofBytes_div {bs : List UInt8} {k : Nat} {b : UInt8} (h : bs[k]? = some b) :
    UInt8.ofNat (ofBytes bs / 256 ^ k) = b := by
  have hk : k < bs.length := (List.getElem?_eq_some_iff.1 h).1
  have hbyte := getElem?_bytes hk (ofBytes bs)
  rw [bytes_ofBytes, h] at hbyte
  exact (Option.some.inj hbyte).symm

theorem values_eq_pow (n : Nat) : values n = 256 ^ n := by
  induction n with
  | zero => rfl
  | succ n ih => rw [values, ih, Nat.pow_succ']

/-- Words have at most four bytes. -/
theorem IsWidth.pow_le {len : Nat} (h : IsWidth len) : 256 ^ len ≤ 2 ^ 32 := by
  rcases h with rfl | rfl | rfl <;> decide

end Word

/-- What is asked of a bus. -/
inductive BusCall
  | read (addr : UInt32) (len : Nat)
  | write (addr : UInt32) (len : Nat) (data : UInt32)

namespace BusCall

variable {δ : Type} {bus m : Bus δ} {call : BusCall}

/-- The first address of the access. -/
def addr : BusCall → UInt32
  | .read addr _ | .write addr _ _ => addr

/-- How many bytes the access covers. -/
def len : BusCall → Nat
  | .read _ len | .write _ len _ => len

/-! ## Where a call goes -/

section

variable [Device δ]

/-- Makes the call. A read answers the word. -/
def perform : BusCall → Op (Bus δ) (Option UInt32)
  | .read addr len => some <$> Bus.read addr len
  | .write addr len data => (fun _ => none) <$> Bus.write addr len data

/-- One call of the device at place `i`, with the address, the width and the data as they are. -/
def served (m : Bus δ) (i : Nat) (region : Region δ) : BusCall → Outcome (Bus δ) (Option UInt32)
  | .read addr len =>
    let (value, device) := Device.read region.device addr len
    ⟨.ok (some value), ⟨m.ram, m.table.setDevice i device⟩,
      [.deviceRead region.name addr len value]⟩
  | .write addr len data =>
    ⟨.ok none, ⟨m.ram, m.table.setDevice i (Device.write region.device addr len data)⟩,
      [.deviceWrite region.name addr len data]⟩

omit [Device δ] in
/-- The call on RAM, past all devices. -/
def stored (m : Bus δ) : BusCall → Outcome (Bus δ) (Option UInt32)
  | .read addr len => ⟨.ok (some (UInt32.ofNat (Word.ofBytes (m.ram.slice addr.toNat len)))), m, []⟩
  | .write addr len data =>
    ⟨.ok none, ⟨m.ram.store addr.toNat (Word.bytes len data.toNat), m.table⟩, []⟩

theorem run_of_refused {e : Error} (h : m.ram.checkWord call.addr call.len = .error e) :
    call.perform.run m = ⟨.error e, m, []⟩ := by
  cases call with
  | read addr len => exact Op.run_map_of_error (Bus.run_read_of_refused h)
  | write addr len data => exact Op.run_map_of_error (Bus.run_write_of_refused h data)

theorem run_of_find (h : m.ram.checkWord call.addr call.len = .ok ()) {i : Nat} {region : Region δ}
    (hf : m.table.find? call.addr = some (i, region)) :
    call.perform.run m = call.served m i region := by
  cases call with
  | read addr len => exact Op.run_map_of_ok (Bus.run_read_of_find h hf)
  | write addr len data => exact Op.run_map_of_ok (Bus.run_write_of_find h hf data)

theorem run_of_not_find (h : m.ram.checkWord call.addr call.len = .ok ())
    (hf : m.table.find? call.addr = none) : call.perform.run m = call.stored m := by
  cases call with
  | read addr len => exact Op.run_map_of_ok (Bus.run_read_of_not_find h hf)
  | write addr len data => exact Op.run_map_of_ok (Bus.run_write_of_not_find h hf data)

/-- A call that passes the check succeeds, wherever it goes. -/
theorem exists_ok (h : m.ram.checkWord call.addr call.len = .ok ()) :
    ∃ v, (call.perform.run m).result = .ok v := by
  cases hf : m.table.find? call.addr with
  | none =>
    rw [run_of_not_find h hf]
    cases call <;> exact ⟨_, rfl⟩
  | some found =>
    rw [run_of_find h hf]
    cases call <;> exact ⟨_, rfl⟩

/-- A call fails exactly where the check does. -/
theorem result_eq_error_iff {e : Error} :
    (call.perform.run m).result = .error e ↔ m.ram.checkWord call.addr call.len = .error e := by
  cases hw : m.ram.checkWord call.addr call.len with
  | error e' =>
    rw [run_of_refused hw, Except.error.injEq, Except.error.injEq]
  | ok u =>
    obtain ⟨v, hv⟩ := exists_ok hw
    rw [hv]
    exact iff_of_false (fun h => nomatch h) (fun h => nomatch h)

theorem checkWord_of_ok {v : Option UInt32} (h : (call.perform.run m).result = .ok v) :
    m.ram.checkWord call.addr call.len = .ok () := by
  cases hw : m.ram.checkWord call.addr call.len with
  | error e =>
    rw [run_of_refused hw] at h
    cases h
  | ok u => rfl

end

/-! ## What is remembered of calls -/

/-- The byte that a call puts at `j`, if it is a write that succeeds, goes to RAM, and covers `j`. -/
def put (bus : Bus δ) (j : Nat) : BusCall × Except Error (Option UInt32) → Option UInt8
  | (.write addr len data, .ok _) =>
    if bus.Unclaimed addr ∧ addr.toNat ≤ j ∧ j < addr.toNat + len then
      some (UInt8.ofNat (data.toNat / 256 ^ (j - addr.toNat)))
    else none
  | _ => none

/-- The byte that was put at `j` last. -/
def lastPut (bus : Bus δ) (log : List (BusCall × Except Error (Option UInt32))) (j : Nat) :
    Option UInt8 :=
  log.reverse.findSome? (put bus j)

variable {log : List (BusCall × Except Error (Option UInt32))}

theorem lastPut_concat (bus : Bus δ) (log : List (BusCall × Except Error (Option UInt32)))
    (last : BusCall × Except Error (Option UInt32)) (j : Nat) :
    lastPut bus (log ++ [last]) j = (put bus j last).or (lastPut bus log j) := by
  rw [lastPut, List.reverse_append, List.reverse_singleton, List.singleton_append,
    List.findSome?_cons]
  cases put bus j last <;> rfl

@[simp] theorem put_error (bus : Bus δ) (j : Nat) (call : BusCall) (e : Error) :
    put bus j (call, .error e) = none := by
  cases call <;> rfl

/-- A call that a device serves puts nothing into RAM. -/
theorem put_of_not_unclaimed (h : ¬ bus.Unclaimed call.addr) (j : Nat)
    (r : Except Error (Option UInt32)) : put bus j (call, r) = none := by
  cases call with
  | read addr len => rfl
  | write addr len data =>
    cases r with
    | error e => rfl
    | ok v => exact if_neg fun hput => h hput.1

/-- After calls the bus claims what it claimed, and RAM is what they have put into it. -/
structure Remembers (bus m : Bus δ) (log : List (BusCall × Except Error (Option UInt32))) :
    Prop where
  size : m.ram.size = bus.ram.size
  claims : m.table.claims = bus.table.claims
  byte : ∀ j, m.ram.byte j = (lastPut bus log j).getD (bus.ram.byte j)

/-- A call that leaves RAM and claims as they are, and puts nothing anywhere, is not remembered. -/
theorem Remembers.skip (h : Remembers bus m log) {m' : Bus δ} (hram : m'.ram = m.ram)
    (hclaims : m'.table.claims = m.table.claims) {last : BusCall × Except Error (Option UInt32)}
    (hput : ∀ j, put bus j last = none) : Remembers bus m' (log ++ [last]) where
  size := by rw [hram, h.size]
  claims := by rw [hclaims, h.claims]
  byte j := by rw [hram, lastPut_concat, hput, Option.none_or, h.byte]

/-- A write to RAM puts its bytes where it covers RAM, and changes no other. -/
theorem Remembers.store (h : Remembers bus m log) {addr : UInt32} {len : Nat} (data : UInt32)
    (hfit : m.ram.Fits addr len) (hfree : bus.Unclaimed addr) (v : Option UInt32) :
    Remembers bus ⟨m.ram.store addr.toNat (Word.bytes len data.toNat), m.table⟩
      (log ++ [(.write addr len data, .ok v)]) where
  size := by rw [Ram.size_store, h.size]
  claims := h.claims
  byte j := by
    have hlen : addr.toNat + (Word.bytes len data.toNat).length ≤ m.ram.size := by
      rw [Word.length_bytes]
      exact hfit
    rw [lastPut_concat, put]
    by_cases hj : addr.toNat ≤ j ∧ j < addr.toNat + len
    · have hk : j - addr.toNat < len := by omega
      rw [if_pos ⟨hfree, hj⟩, Ram.byte_store hlen, if_pos hj.1, Word.getElem?_bytes hk]
      rfl
    · rw [if_neg fun hput => hj hput.2, Option.none_or, ← h.byte]
      refine Ram.byte_store_of_outside hlen ?_
      rw [Word.length_bytes]
      omega

/-- A read of RAM answers the bytes that were put there. -/
theorem Remembers.stored_read (h : Remembers bus m log) (addr : UInt32) {len : Nat}
    (hwidth : Word.IsWidth len) : ∃ w, (BusCall.read addr len).stored m = ⟨.ok (some w), m, []⟩ ∧
      w.toNat < 256 ^ len ∧ ∀ k < len, UInt8.ofNat (w.toNat / 256 ^ k) =
        (lastPut bus log (addr.toNat + k)).getD (bus.ram.byte (addr.toNat + k)) := by
  have hlt : Word.ofBytes (m.ram.slice addr.toNat len) < 256 ^ len := by
    have hlt := Word.ofBytes_lt (m.ram.slice addr.toNat len)
    rwa [Ram.length_slice, Word.values_eq_pow] at hlt
  have hword : (UInt32.ofNat (Word.ofBytes (m.ram.slice addr.toNat len))).toNat =
      Word.ofBytes (m.ram.slice addr.toNat len) := by
    rw [UInt32.toNat_ofNat', Nat.mod_eq_of_lt (Nat.lt_of_lt_of_le hlt hwidth.pow_le)]
  refine ⟨_, rfl, ?_, ?_⟩
  · rw [hword]
    exact hlt
  · intro k hk
    rw [hword, ← h.byte]
    exact Word.ofNat_ofBytes_div (Ram.getElem?_slice m.ram addr.toNat hk)

variable [Device δ]

/-- One more call is remembered, wherever it goes. -/
theorem Remembers.perform (h : Remembers bus m log) (call : BusCall) :
    Remembers bus (call.perform.run m).state (log ++ [(call, (call.perform.run m).result)]) := by
  cases hw : m.ram.checkWord call.addr call.len with
  | error e =>
    rw [run_of_refused hw]
    exact h.skip rfl rfl fun j => put_error bus j call e
  | ok u =>
    cases hf : m.table.find? call.addr with
    | some found =>
      obtain ⟨i, region⟩ := found
      have hclaimed : ¬ bus.Unclaimed call.addr := by
        intro hfree
        rw [Bus.unclaimed_iff.1 (hfree.congr h.claims)] at hf
        cases hf
      rw [run_of_find hw hf]
      refine h.skip ?_ ?_ fun j => put_of_not_unclaimed hclaimed j _
      · cases call <;> rfl
      · cases call <;> exact RegionTable.claims_setDevice _ _ _
    | none =>
      rw [run_of_not_find hw hf]
      cases call with
      | read addr len => exact h.skip rfl rfl fun j => rfl
      | write addr len data =>
        have hfree : bus.Unclaimed addr := (Bus.unclaimed_iff.2 hf).congr h.claims.symm
        exact h.store data (Ram.checkWord_eq_ok_iff.1 hw).2 hfree none

/-- So are any calls. -/
theorem remembers_runAll (bus : Bus δ) (calls : List BusCall) :
    Remembers bus (Op.runAll perform bus calls).1 (Op.runAll perform bus calls).2 :=
  Op.runAll_invariant (I := Remembers bus) ⟨rfl, rfl, fun _ => rfl⟩
    (fun _ _ call h => h.perform call) calls

/-- What becomes of a call after any others. It is refused for its width or its bounds alone, and then
nothing happens. Else it is one call of the device whose region holds the first address, with nothing
changed in RAM; devices are arbitrary, so one that counts its calls counts this one and no more. If no
region holds the address, no device is called, and a read answers the bytes that were put there last,
or were there at the start. -/
theorem bus_lastWriter (hbus : bus.Reached) (calls : List BusCall) (call : BusCall) :
    let m := (Op.runAll perform bus calls).1
    let log := (Op.runAll perform bus calls).2
    let o := call.perform.run m
    (m.ram.size = bus.ram.size ∧ m.table.claims = bus.table.claims) ∧
    (∀ e, o.result = .error e ↔
      ¬ Word.IsWidth call.len ∧ e = .badWidth call.len ∨
        Word.IsWidth call.len ∧ bus.ram.size < call.addr.toNat + call.len ∧
          e = .outOfBounds call.addr call.len) ∧
    (∀ e, o.result = .error e → o.state = m ∧ o.events = []) ∧
    (∀ v, o.result = .ok v → ∀ (i : Nat) (region : Region δ),
      m.table.regions[i]? = some region → call.addr ∈ region.range →
        o = call.served m i region) ∧
    (∀ v, o.result = .ok v → (∀ region ∈ m.table.regions, call.addr ∉ region.range) →
      (o.state.table = m.table ∧ o.events = []) ∧
      ∀ addr len, call = .read addr len → o.state = m ∧
        ∃ w, v = some w ∧ w.toNat < 256 ^ len ∧ ∀ k < len, UInt8.ofNat (w.toNat / 256 ^ k) =
          (lastPut bus log (addr.toNat + k)).getD (bus.ram.byte (addr.toNat + k))) := by
  have h := remembers_runAll bus calls
  generalize Op.runAll perform bus calls = run at h ⊢
  obtain ⟨m, log⟩ := run
  dsimp only at h ⊢
  have hsound : m.table.Sound bus.ram.size := hbus.sound.congr h.claims
  refine ⟨⟨h.size, h.claims⟩, ?_, ?_, ?_, ?_⟩
  · intro e
    rw [result_eq_error_iff, Ram.checkWord_eq_error_iff, h.size]
  · intro e he
    rw [run_of_refused (result_eq_error_iff.1 he)]
    exact ⟨rfl, rfl⟩
  · intro v hv i region hregion haddr
    exact run_of_find (checkWord_of_ok hv) (hsound.find?_eq_some_iff.2 ⟨hregion, haddr⟩)
  · intro v hv hfree
    have hw := checkWord_of_ok hv
    rw [run_of_not_find hw (Bus.unclaimed_iff.1 hfree)] at hv ⊢
    constructor
    · cases call <;> exact ⟨rfl, rfl⟩
    · rintro addr len rfl
      have hwidth : Word.IsWidth len := (Ram.checkWord_eq_ok_iff.1 hw).1
      obtain ⟨w, hrun, hbytes⟩ := h.stored_read addr hwidth
      rw [hrun] at hv ⊢
      cases hv
      exact ⟨rfl, w, rfl, hbytes⟩

/-- A write whose tail runs into a region, and one that begins in it. -/
def straddling : List BusCall := [.write 0xffe 4 0x11223344, .write 0x1000 1 9]

/-- The tail lies in RAM, and the other write reaches the device. -/
theorem bus_lastWriter_straddling : ∃ bus : Bus RegisterDevice,
    let m := (Op.runAll perform bus straddling).1
    bus.Reached ∧ bus.owner? 0x1000 = some 0 ∧ ∃ w,
      ((BusCall.read 0xfff 2).perform.run m).result = .ok (some w) ∧
        UInt8.ofNat (w.toNat / 256 ^ 0) = 0x33 ∧ UInt8.ofNat (w.toNat / 256 ^ 1) = 0x22 := by
  obtain ⟨ram, hzero⟩ : ∃ ram, Ram.zeroed 65536 = .ok ram := ⟨_, rfl⟩
  have hsize := Ram.size_of_zeroed hzero
  let device : Region RegisterDevice := ⟨"latch", ⟨0x1000, 4⟩, ⟨.latch, 0⟩⟩
  let bus : Bus RegisterDevice := ⟨ram, ⟨[device]⟩⟩
  have hreached : bus.Reached := by
    have hattach := (Bus.Reached.ofRam ram : (Bus.ofRam ram : Bus RegisterDevice).Reached).attach
      device
    have hrun : ((Bus.attach device).run (Bus.ofRam ram)).state = bus := by
      simp [Bus.attach, RegionTable.attach, Bus.ofRam, RegionTable.empty, Range.stop,
        Range.IsEmpty, hsize, UInt32.size, device, bus]
    rwa [hrun] at hattach
  have hlog : (Op.runAll perform bus straddling).2 =
      [(.write 0xffe 4 0x11223344, .ok none), (.write 0x1000 1 9, .ok none)] := by
    simp [Op.runAll, straddling, perform, Bus.write, Ram.checkWord, Word.checkWidth, Word.IsWidth,
      Ram.check, Ram.Fits, Ram.write, RegionTable.find?, RegionTable.locate, Range.mem_iff,
      Range.stop, RegionTable.writeRegion, bind, Except.bind, hsize, device, bus]
  obtain ⟨⟨-, hclaims⟩, herror, -, -, hram⟩ := bus_lastWriter hreached straddling (.read 0xfff 2)
  refine ⟨bus, hreached, rfl, ?_⟩
  cases hr : ((BusCall.read 0xfff 2).perform.run (Op.runAll perform bus straddling).1).result with
  | error e =>
    rcases (herror e).1 hr with ⟨hwidth, -⟩ | ⟨-, hlt, -⟩
    · exact absurd (by decide) hwidth
    · have hlt : ram.size < 4095 + 2 := hlt
      omega
  | ok v =>
    have hfree : bus.Unclaimed 0xfff := by
      rw [Bus.unclaimed_iff]
      rfl
    obtain ⟨-, hread⟩ := hram v hr (hfree.congr hclaims)
    obtain ⟨-, w, rfl, -, hbytes⟩ := hread 0xfff 2 rfl
    rw [hlog] at hbytes
    exact ⟨w, rfl, hbytes 0 (by decide), hbytes 1 (by decide)⟩

end BusCall

end PagedMemory
