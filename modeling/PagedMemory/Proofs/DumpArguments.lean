import PagedMemory.Proofs.CommandLine
import PagedMemory.Proofs.Numerals

/-!
# What asks for a dump

A dump is asked for by an address and, behind the first colon, by how many words there are. The
bytes of its words can be counted in 32 bits, so the distance of a word from the first one does not
wrap, although its address may.

- `IsDump`: the grammar;
- `readDump_eq_ok_iff`: what is accepted is what the grammar allows;
- `isDump_append`: the printed forms of a dump are among it;
- `words_dumpFrom`: the addresses that a dump shows follow each other from the first one on;
- `dump_arguments`: what this says of addresses, of dumps and of the words shown.
-/

namespace PagedMemory

namespace Cli

open Text

/-- The text is an address without a colon, or an address, the first colon, and a decimal numeral
of words whose bytes can be counted in 32 bits. -/
inductive IsDump (s : String) : Dump → Prop
  | plain {start : UInt32} : ':' ∉ s.toList → IsAddress s start → IsDump s ⟨start, 4⟩
  | counted {x y : String} {start count : UInt32} : s = x ++ ":" ++ y → ':' ∉ x.toList →
      IsAddress x start → IsNumeral 10 y.toList count → 4 * count.toNat < 2 ^ 32 →
      IsDump s ⟨start, count⟩

namespace Options

variable {s x y : String} {dump : Dump} {cs ds : List Char}

/-! ## Reading -/

/-- The fault of a numeral is passed on. -/
theorem numeric_bind_eq_ok_iff {α : Type} {r : Except NumeralFault UInt32}
    {f : UInt32 → Except Fault α} {a : α} :
    numeric r >>= f = .ok a ↔ ∃ n, r = .ok n ∧ f n = .ok a := by
  cases r with
  | error e => simp [numeric, Except.mapError, bind, Except.bind]
  | ok n => simp [numeric, Except.mapError, bind, Except.bind]

/-- Characters without a colon are passed over. -/
theorem span_append (hcs : ':' ∉ cs) (ds : List Char) :
    (cs ++ ds).span (· != ':') = (cs ++ ds.takeWhile (· != ':'), ds.dropWhile (· != ':')) := by
  have hbefore : ∀ c ∈ cs, (c != ':') = true := fun _ hc => bne_iff_ne.2 fun h => hcs (h ▸ hc)
  rw [List.span_eq_takeWhile_dropWhile, List.takeWhile_append_of_pos hbefore,
    List.dropWhile_append_of_pos hbefore]

/-- Without a colon there are four words. -/
theorem readDump_of_not_mem (h : ':' ∉ s.toList) :
    readDump s = (do
      let start ← numeric (readAddress s)
      pure ⟨start, 4⟩) := by
  have hspan : s.toList.span (· != ':') = (s.toList, []) := by simpa using span_append h []
  rw [readDump, hspan]
  cases numeric (readAddress s) <;> rfl

/-- The address stands before the first colon, and the count behind it. -/
theorem readDump_of_eq (hs : s = x ++ ":" ++ y) (hx : ':' ∉ x.toList) :
    readDump s = (do
      let start ← numeric (readAddress x)
      let count ← numeric (decimal y)
      if count.toNat * 4 < UInt32.size then pure ⟨start, count⟩ else throw (.dumpTooLarge count)) := by
  have hlist : s.toList = x.toList ++ ':' :: y.toList := by
    rw [hs, String.toList_append, String.toList_append, List.append_assoc]
    rfl
  have hspan : s.toList.span (· != ':') = (x.toList, ':' :: y.toList) := by
    rw [hlist, span_append hx]
    simp
  rw [readDump, hspan]
  simp only [String.ofList_toList]
  cases numeric (readAddress x) with
  | error e => rfl
  | ok start => cases numeric (decimal y) <;> rfl

/-- A dump is accepted exactly if the grammar allows it. -/
theorem readDump_eq_ok_iff : readDump s = .ok dump ↔ IsDump s dump := by
  constructor
  · intro h
    by_cases hs : ':' ∈ s.toList
    · obtain ⟨cs, ds, hlist, hcs⟩ := List.eq_append_cons_of_mem hs
      have hcut : s = String.ofList cs ++ ":" ++ String.ofList ds := by
        rw [← String.toList_inj, hlist]
        simp
      have hx : ':' ∉ (String.ofList cs).toList := by rwa [String.toList_ofList]
      rw [readDump_of_eq hcut hx] at h
      obtain ⟨start, hstart, h⟩ := numeric_bind_eq_ok_iff.1 h
      obtain ⟨count, hcount, h⟩ := numeric_bind_eq_ok_iff.1 h
      split at h
      case isTrue hfits =>
        cases h
        exact .counted hcut hx (readAddress_eq_ok_iff.1 hstart) (decimal_eq_ok_iff.1 hcount)
          (Nat.mul_comm .. ▸ hfits)
      case isFalse => cases h
    · rw [readDump_of_not_mem hs] at h
      obtain ⟨start, hstart, h⟩ := numeric_bind_eq_ok_iff.1 h
      cases h
      exact .plain hs (readAddress_eq_ok_iff.1 hstart)
  · intro h
    cases h with
    | plain hs hstart =>
      rw [readDump_of_not_mem hs]
      exact numeric_bind_eq_ok_iff.2 ⟨_, readAddress_eq_ok_iff.2 hstart, rfl⟩
    | counted hs hx hstart hcount hfits =>
      rw [readDump_of_eq hs hx]
      refine numeric_bind_eq_ok_iff.2 ⟨_, readAddress_eq_ok_iff.2 hstart, ?_⟩
      refine numeric_bind_eq_ok_iff.2 ⟨_, decimal_eq_ok_iff.2 hcount, ?_⟩
      rw [if_pos (Nat.mul_comm .. ▸ hfits)]
      rfl

/-! ## Printed forms -/

/-- A dump with as many words as it may have is read back, in whatever form its address is. -/
theorem isDump_append {start count : UInt32} (hx : ':' ∉ x.toList) (hstart : IsAddress x start)
    (hcount : count.toNat < 2 ^ 30) :
    IsDump (x ++ ":" ++ toString count.toNat) ⟨start, count⟩ :=
  .counted rfl hx hstart (isNumeral_toString count) (by omega)

theorem colon_not_mem_address (addr : UInt32) : ':' ∉ (address addr).toList := by
  obtain ⟨t, ht, hdigits⟩ := isDigits_address addr
  have hcolon : ':' ∉ t.toList := hdigits.not_mem (by decide) (by decide)
  simpa [ht] using hcolon

end Options

/-! ## The words that are shown -/

/-- The addresses that a dump shows follow each other, up to the last word or the first that fails.
Induction on the words that are left. -/
theorem words_dumpFrom {δ : Type} [Device δ] (regs : Registers) (m : Machine δ) (vaddr : UInt32)
    (words : List (UInt32 × UInt32)) (events : List Event) (count : Nat) :
    ∃ more, (dumpFrom regs m vaddr words events count).words = words.reverse ++ more ∧
      more.map Prod.fst <+: addressesFrom vaddr count := by
  induction count generalizing m vaddr words events with
  | zero => exact ⟨[], (List.append_nil _).symm, List.nil_prefix⟩
  | succ count ih =>
    rw [addressesFrom_succ]
    unfold dumpFrom
    rcases (Machine.read regs vaddr 4).run m with ⟨e | word, m', es⟩
    · exact ⟨[], (List.append_nil _).symm, List.nil_prefix⟩
    · obtain ⟨more, hmore, hprefix⟩ := ih m' (vaddr + 4) ((vaddr, word) :: words)
        (es.reverseAux events)
      refine ⟨(vaddr, word) :: more, ?_, ?_⟩
      · refine hmore.trans ?_
        rw [List.reverse_cons, List.append_assoc, List.singleton_append]
      · exact List.cons_prefix_cons.2 ⟨rfl, hprefix⟩

/-- The word at place `k` is the one that lies `k` words behind the first. -/
theorem fst_of_getElem?_dumpFrom {δ : Type} [Device δ] {regs : Registers} {m : Machine δ}
    {vaddr : UInt32} {count k : Nat} {word : UInt32 × UInt32}
    (h : (dumpFrom regs m vaddr [] [] count).words[k]? = some word) :
    k < count ∧ word.1 = vaddr + UInt32.ofNat k * 4 := by
  obtain ⟨more, hmore, rest, hrest⟩ := words_dumpFrom regs m vaddr [] [] count
  have hmore : (dumpFrom regs m vaddr [] [] count).words = more := hmore
  rw [hmore] at h
  have hk : k < (more.map Prod.fst).length := by
    rw [List.length_map]
    exact (List.getElem?_eq_some_iff.1 h).1
  have haddress : (addressesFrom vaddr count)[k]? = some word.1 := by
    rw [← hrest, List.getElem?_append_left hk, List.getElem?_map, h]
    rfl
  rw [addressesFrom, List.getElem?_map, Option.map_eq_some_iff] at haddress
  obtain ⟨n, hn, hvaddr⟩ := haddress
  obtain ⟨hlt, rfl⟩ : k < count ∧ k = n := by simpa using List.getElem?_eq_some_iff.1 hn
  refine ⟨hlt, ?_⟩
  rw [← hvaddr, ← UInt32.toNat_inj]
  simp only [UInt32.toNat_add, UInt32.toNat_mul, UInt32.toNat_ofNat']
  change _ = (_ + _ % 2 ^ 32 * 4 % 2 ^ 32) % 2 ^ 32
  omega

/-- The words of a dump span less than `2 ^ 32` bytes. -/
theorem IsDump.count_lt {s : String} {dump : Dump} (h : IsDump s dump) :
    4 * dump.count.toNat < 2 ^ 32 := by
  cases h with
  | plain _ _ => exact (by decide : 4 * (4 : UInt32).toNat < 2 ^ 32)
  | counted _ _ _ _ hfits => exact hfits

/-- Addresses and dumps are accepted exactly if their grammars allow them, with the values that
these give. A dump in its printed form is read back, with its address in either radix. In a dump
that was accepted the distance from the first word to any other does not wrap, and each word that is
shown stands at its distance. -/
theorem dump_arguments :
    (∀ (s : String) (n : UInt32), readAddress s = .ok n ↔ IsAddress s n) ∧
    (∀ (s : String) (dump : Dump), Options.readDump s = .ok dump ↔ IsDump s dump) ∧
    (∀ start count : UInt32, count.toNat < 2 ^ 30 →
      Options.readDump (address start ++ ":" ++ toString count.toNat) = .ok ⟨start, count⟩ ∧
      Options.readDump (toString start.toNat ++ ":" ++ toString count.toNat) =
        .ok ⟨start, count⟩) ∧
    ∀ (s : String) (dump : Dump), Options.readDump s = .ok dump →
      (∀ n < dump.count, (n * 4).toNat = n.toNat * 4) ∧
      ∀ (δ : Type) [Device δ] (regs : Registers) (m : Machine δ) (k : Nat)
        (word : UInt32 × UInt32),
        (dumpFrom regs m dump.start [] [] dump.count.toNat).words[k]? = some word →
          k < dump.count.toNat ∧ word.1 = dump.start + UInt32.ofNat k * 4 := by
  refine ⟨fun s n => readAddress_eq_ok_iff, fun s dump => Options.readDump_eq_ok_iff, ?_, ?_⟩
  · intro start count hcount
    simp only [Options.readDump_eq_ok_iff]
    constructor
    · exact Options.isDump_append (Options.colon_not_mem_address start) (isAddress_address start)
        hcount
    · exact Options.isDump_append (not_mem_toString (by decide) start.toNat)
        (isAddress_toString start) hcount
  · intro s dump hs
    have hcount := (Options.readDump_eq_ok_iff.1 hs).count_lt
    refine ⟨fun n hn => ?_, fun _ _ _ _ _ _ h => fst_of_getElem?_dumpFrom h⟩
    have hn : n.toNat < dump.count.toNat := hn
    rw [UInt32.toNat_mul]
    change n.toNat * 4 % 2 ^ 32 = _
    omega

/-- As many words as there may be, from the last address on. -/
theorem dump_arguments_longest :
    Options.readDump "0xffffffff:1073741823" = .ok ⟨0xffffffff, 1073741823⟩ ∧
      Options.readDump "4294967295:1073741823" = .ok ⟨0xffffffff, 1073741823⟩ ∧
      ((1073741822 : UInt32) * 4).toNat = 4294967288 := by
  obtain ⟨-, -, hprinted, hwords⟩ := dump_arguments
  obtain ⟨hhex, hdecimal⟩ := hprinted 0xffffffff 1073741823 (by decide)
  exact ⟨hhex, hdecimal, (hwords _ _ hhex).1 1073741822 (by decide)⟩

end Cli

end PagedMemory
