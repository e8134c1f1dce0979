import Mathlib.Data.List.Induction
import Mathlib.Tactic.SplitIfs
import PagedMemory.Text.Hex
import PagedMemory.Text.Numeral

/-!
# The grammar of numerals and addresses

A digit is written as printing writes it, or with a capital letter. Digits have the value that the
last one adds to those before it. A numeral is digits whose value fits into 32 bits, with or without
a plus sign before them. An address is a numeral of radix 16 behind its prefix, or else one of radix
10.

- `digit?_eq_some_iff`: which character is which digit;
- `numeral_eq_ok_iff`, `readAddress_eq_ok_iff`: what is accepted is what the grammar allows, with
  the value that it gives;
- `isAddress_address`, `isAddress_toString`: the printed forms of an address are in the grammar.
-/

namespace PagedMemory

namespace Text

/-! ## The grammar -/

/-- The character writes the digit of value `d`. -/
def IsDigit (radix : Nat) (c : Char) (d : Nat) : Prop :=
  d < radix ∧ (c = Nat.digitChar d ∨ c = (Nat.digitChar d).toUpper)

/-- The characters are digits, at least one, and write the number. -/
inductive IsDigits (radix : Nat) : List Char → Nat → Prop
  | single {c : Char} {d : Nat} : IsDigit radix c d → IsDigits radix [c] d
  | concat {cs : List Char} {c : Char} {n d : Nat} : IsDigits radix cs n → IsDigit radix c d →
      IsDigits radix (cs ++ [c]) (n * radix + d)

/-- The characters are digits, with or without a plus sign before them, and their value fits. -/
def IsNumeral (radix : Nat) (cs : List Char) (n : UInt32) : Prop :=
  ∃ digits, (cs = digits ∨ cs = '+' :: digits) ∧ IsDigits radix digits n.toNat

/-- The text is one of the prefixes of hexadecimal numerals, and `t` behind it. -/
def Prefixed (s t : String) : Prop := s = "0x" ++ t ∨ s = "0X" ++ t

/-- The text is a hexadecimal numeral behind its prefix, or it has none and is a decimal numeral. -/
def IsAddress (s : String) (n : UInt32) : Prop :=
  (∃ t, Prefixed s t ∧ IsNumeral 16 t.toList n) ∨
    (∀ t, ¬ Prefixed s t) ∧ IsNumeral 10 s.toList n

variable {radix d n : Nat} {c : Char} {cs : List Char}

/-! ## Digits -/

theorem toNat_digitChar :
    ∀ d < 16, (Nat.digitChar d).toNat = if d < 10 then 48 + d else 87 + d := by
  decide

theorem toNat_toUpper_digitChar :
    ∀ d < 16, (Nat.digitChar d).toUpper.toNat = if d < 10 then 48 + d else 55 + d := by
  decide

/-- Decimal digits stand together, and so do the letters of either case. -/
theorem isDigit_iff (h : radix ≤ 16) : IsDigit radix c d ↔ d < radix ∧
    (d < 10 ∧ c.toNat = 48 + d ∨ 10 ≤ d ∧ (c.toNat = 87 + d ∨ c.toNat = 55 + d)) := by
  rw [IsDigit, ← Char.toNat_inj, ← Char.toNat_inj]
  refine and_congr_right fun hd => ?_
  rw [toNat_digitChar d (by omega), toNat_toUpper_digitChar d (by omega)]
  split <;> omega

/-- A character is read as the digit that it writes. -/
theorem digit?_eq_some_iff (h : radix ≤ 16) : digit? radix c = some d ↔ IsDigit radix c d := by
  have hle : ∀ a b : Char, a ≤ b ↔ a.toNat ≤ b.toNat := fun _ _ => Iff.rfl
  rw [isDigit_iff h, digit?]
  simp only [Option.ite_none_right_eq_some, Option.some.injEq, hle, Char.reduceToNat]
  split_ifs <;> omega

theorem IsDigits.isDigit (h : IsDigits radix cs n) : ∀ c ∈ cs, ∃ d, IsDigit radix c d := by
  induction h with
  | single hd =>
    intro c hc
    exact ⟨_, List.mem_singleton.1 hc ▸ hd⟩
  | concat _ hd ih =>
    intro c hc
    rcases List.mem_append.1 hc with hc | hc
    · exact ih c hc
    · exact ⟨_, List.mem_singleton.1 hc ▸ hd⟩

/-- A character that writes no digit does not occur among digits. -/
theorem IsDigits.not_mem (h : IsDigits radix cs n) (hr : radix ≤ 16)
    (hc : digit? radix c = none) : c ∉ cs := by
  intro hmem
  obtain ⟨d, hd⟩ := h.isDigit c hmem
  rw [(digit?_eq_some_iff hr).2 hd] at hc
  cases hc

/-- Digits are known by the value of each, from the first to the last. -/
theorem isDigits_iff (h : radix ≤ 16) : IsDigits radix cs n ↔
    cs ≠ [] ∧ ∃ ds, cs.map (digit? radix) = ds.map some ∧ valueOf radix 0 ds = n := by
  constructor
  · intro hcs
    induction hcs with
    | @single c d hd =>
      refine ⟨List.cons_ne_nil _ _, [d], ?_, ?_⟩
      · rw [List.map_singleton, (digit?_eq_some_iff h).2 hd, List.map_singleton]
      · simp [valueOf]
    | @concat cs c n d _ hd ih =>
      obtain ⟨-, ds, hds, rfl⟩ := ih
      refine ⟨by simp, ds ++ [d], ?_, ?_⟩
      · rw [List.map_append, List.map_append, hds, List.map_singleton, (digit?_eq_some_iff h).2 hd,
          List.map_singleton]
      · rw [valueOf, List.foldl_append]
        rfl
  · rintro ⟨hne, ds, hds, rfl⟩
    -- from the back, since a digit adds to the value of those before it
    induction cs using List.reverseRecOn generalizing ds with
    | nil => exact absurd rfl hne
    | append_singleton cs c ih =>
      rcases List.eq_nil_or_concat ds with rfl | ⟨ds, d, rfl⟩
      · simp at hds
      · simp only [List.concat_eq_append, List.map_append, List.map_singleton] at hds
        obtain ⟨hinit, hlast⟩ := List.append_inj' hds rfl
        have hd := (digit?_eq_some_iff h).1 (List.singleton_inj.1 hlast)
        rw [List.concat_eq_append, valueOf, List.foldl_append]
        by_cases hcs : cs = []
        · subst hcs
          obtain rfl : ds = [] := List.map_eq_nil_iff.1 hinit.symm
          simpa using IsDigits.single hd
        · exact (ih hcs ds hinit).concat hd

/-! ## Numerals -/

/-- Reading digits, at least one, gives their value if it fits. -/
theorem readDigits_eq_iff_isDigits (h0 : 0 < radix) (h : radix ≤ 16) {n : UInt32} (hcs : cs ≠ []) :
    (readDigits radix 0 cs).map UInt32.ofNat = .ok n ↔ IsDigits radix cs n.toNat := by
  have hmap : (readDigits radix 0 cs).map UInt32.ofNat = .ok n ↔
      ∃ m, readDigits radix 0 cs = .ok m ∧ UInt32.ofNat m = n := by
    cases readDigits radix 0 cs <;> simp [Except.map]
  rw [hmap, isDigits_iff h, and_iff_right hcs]
  constructor
  · rintro ⟨m, hm, rfl⟩
    obtain ⟨ds, hds, hvalue, hlt⟩ := (readDigits_eq_ok_iff h0 (by decide)).1 hm
    exact ⟨ds, hds, by rw [UInt32.toNat_ofNat', Nat.mod_eq_of_lt hlt, hvalue]⟩
  · rintro ⟨ds, hds, hvalue⟩
    exact ⟨n.toNat, (readDigits_eq_ok_iff h0 (by decide)).2 ⟨ds, hds, hvalue, n.toNat_lt⟩,
      UInt32.ofNat_toNat⟩

/-- A sign is no digit. -/
theorem not_isDigits_plus (h : radix ≤ 16) : ¬ IsDigits radix ('+' :: cs) n := by
  intro hcs
  obtain ⟨d, hd⟩ := hcs.isDigit '+' List.mem_cons_self
  have hvalue := ((isDigit_iff h).1 hd).2
  simp only [Char.reduceToNat] at hvalue
  omega

theorem not_isDigits_nil (h : radix ≤ 16) : ¬ IsDigits radix [] n :=
  fun hcs => ((isDigits_iff h).1 hcs).1 rfl

/-- A numeral is accepted exactly if the grammar allows it, with its value. -/
theorem numeral_eq_ok_iff (h0 : 0 < radix) (h : radix ≤ 16) {n : UInt32} :
    numeral radix cs = .ok n ↔ IsNumeral radix cs n := by
  unfold numeral IsNumeral
  split
  · simp [not_isDigits_nil h]
  · simp [not_isDigits_plus h, not_isDigits_nil h]
  · rename_i ds hne
    have hds : ds ≠ [] := by rintro rfl; exact hne rfl
    rw [readDigits_eq_iff_isDigits h0 h hds]
    simp [not_isDigits_plus h]
  · rename_i hnil _ hplus
    rw [readDigits_eq_iff_isDigits h0 h hnil]
    constructor
    · exact fun hcs => ⟨cs, .inl rfl, hcs⟩
    · rintro ⟨digits, rfl | rfl, hcs⟩
      · exact hcs
      · exact absurd rfl (hplus digits)

theorem decimal_eq_ok_iff {s : String} {n : UInt32} :
    decimal s = .ok n ↔ IsNumeral 10 s.toList n :=
  numeral_eq_ok_iff (by decide) (by decide)

/-! ## Addresses -/

theorem prefixed_iff {s t : String} : Prefixed s t ↔
    s.toList = '0' :: 'x' :: t.toList ∨ s.toList = '0' :: 'X' :: t.toList := by
  rw [Prefixed, ← String.toList_inj, ← String.toList_inj, String.toList_append,
    String.toList_append]
  rfl

/-- The prefix says where the numeral begins. -/
theorem Prefixed.unique {s t t' : String} (h : Prefixed s t) (h' : Prefixed s t') : t' = t := by
  rw [prefixed_iff] at h h'
  rw [← String.toList_inj]
  rcases h with h | h <;> simpa [h, eq_comm] using h'

theorem readAddress_of_prefixed {s t : String} (h : Prefixed s t) :
    readAddress s = numeral 16 t.toList := by
  rw [readAddress]
  rcases prefixed_iff.1 h with h | h <;> simp only [h]

theorem readAddress_of_not_prefixed {s : String} (h : ∀ t, ¬ Prefixed s t) :
    readAddress s = numeral 10 s.toList := by
  have hnone : ∀ ds : List Char, s.toList ≠ '0' :: 'x' :: ds ∧ s.toList ≠ '0' :: 'X' :: ds := by
    intro ds
    have hds := h (String.ofList ds)
    rwa [prefixed_iff, String.toList_ofList, not_or] at hds
  rw [readAddress]
  split
  · rename_i ds hs
    exact absurd hs (hnone ds).1
  · rename_i ds hs
    exact absurd hs (hnone ds).2
  · rfl

/-- An address is accepted exactly if the grammar allows it, with its value. -/
theorem readAddress_eq_ok_iff {s : String} {n : UInt32} :
    readAddress s = .ok n ↔ IsAddress s n := by
  by_cases hs : ∃ t, Prefixed s t
  · obtain ⟨t, ht⟩ := hs
    rw [readAddress_of_prefixed ht, numeral_eq_ok_iff (by decide) (by decide)]
    constructor
    · exact fun hn => .inl ⟨t, ht, hn⟩
    · rintro (⟨t', ht', hn⟩ | ⟨hnone, -⟩)
      · exact ht.unique ht' ▸ hn
      · exact absurd ht (hnone t)
  · have hnone := not_exists.1 hs
    rw [readAddress_of_not_prefixed hnone, numeral_eq_ok_iff (by decide) (by decide)]
    constructor
    · exact fun hn => .inr ⟨hnone, hn⟩
    · rintro (⟨t, ht, -⟩ | ⟨-, hn⟩)
      · exact absurd ht (hnone t)
      · exact hn

/-! ## Printed forms -/

/-- Digits as they are printed. -/
theorem isDigits_toDigits (h : 1 < radix) (n : Nat) : IsDigits radix (Nat.toDigits radix n) n := by
  induction n using Nat.strongRecOn with
  | ind n ih =>
    rw [Nat.toDigits_eq_if h]
    split
    · rename_i hlt
      exact .single ⟨hlt, .inl rfl⟩
    · rename_i hge
      have hless : n / radix < n := Nat.div_lt_self (by omega) h
      have hlast := (ih _ hless).concat ⟨Nat.mod_lt n (by omega), .inl rfl⟩
      rwa [Nat.div_add_mod'] at hlast

/-- A zero in front changes nothing. -/
theorem IsDigits.zero_cons (h0 : 0 < radix) (h : IsDigits radix cs n) :
    IsDigits radix ('0' :: cs) n := by
  have hzero : IsDigits radix ['0'] 0 := .single ⟨h0, .inl rfl⟩
  induction h with
  | single hd => simpa using hzero.concat hd
  | concat _ hd ih => exact ih.concat hd

theorem IsDigits.pad (h0 : 0 < radix) (h : IsDigits radix cs n) (k : Nat) :
    IsDigits radix (List.replicate k '0' ++ cs) n := by
  induction k with
  | zero => exact h
  | succ k ih => exact ih.zero_cons h0

/-- A number as it is printed. -/
theorem isNumeral_toString (n : UInt32) : IsNumeral 10 (toString n.toNat).toList n := by
  refine ⟨_, .inl rfl, ?_⟩
  rw [Nat.toString_eq_ofList_toDigits, String.toList_ofList]
  exact isDigits_toDigits (by decide) n.toNat

/-- The printed number has no characters but decimal digits. -/
theorem not_mem_toString (hc : digit? 10 c = none) (n : Nat) : c ∉ (toString n).toList := by
  rw [Nat.toString_eq_ofList_toDigits, String.toList_ofList]
  exact (isDigits_toDigits (by decide) n).not_mem (by decide) hc

theorem isDigits_address (addr : UInt32) :
    ∃ t : String, address addr = "0x" ++ t ∧ IsDigits 16 t.toList addr.toNat := by
  refine ⟨_, rfl, ?_⟩
  rw [String.toList_ofList]
  exact (isDigits_toDigits (by decide) addr.toNat).pad (by decide) _

/-- An address as messages print it. -/
theorem isAddress_address (addr : UInt32) : IsAddress (address addr) addr := by
  obtain ⟨t, ht, hdigits⟩ := isDigits_address addr
  exact .inl ⟨t, .inl ht, _, .inl rfl, hdigits⟩

/-- An address as a decimal number. -/
theorem isAddress_toString (addr : UInt32) : IsAddress (toString addr.toNat) addr := by
  refine .inr ⟨fun t ht => ?_, isNumeral_toString addr⟩
  rcases prefixed_iff.1 ht with ht | ht
  · exact not_mem_toString (c := 'x') (by decide) addr.toNat (ht ▸ by simp)
  · exact not_mem_toString (c := 'X') (by decide) addr.toNat (ht ▸ by simp)

end Text

end PagedMemory
