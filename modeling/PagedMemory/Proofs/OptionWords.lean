import PagedMemory.Cli.Options

/-!
# Words of the command line

The words are read from left to right, and what is read next depends on all the options so far but
tracking. So the option for tracking may stand anywhere but in the place of a value.

- `read_untracked`: options that differ in tracking alone lead to options that do so, too;
- `read_writeBack`: the option for tracking changes no other option.
-/

namespace PagedMemory

namespace Cli

namespace Options

/-- The options without the choice of tracking. -/
def untracked (o : Options) : Options := { o with tracking := .discard }

/-- No value of an option depends on tracking. -/
theorem set_untracked (o : Options) (option : Valued) (value : String) :
    o.untracked.set option value = (o.set option value).map untracked := by
  cases option with
  | image => rfl
  | memory =>
    unfold set
    cases numeric (Text.decimal value) <;> rfl
  | poolStart =>
    unfold set
    cases numeric (Text.readAddress value) <;> rfl
  | dump =>
    unfold set
    cases readDump value <;> rfl

/-- What is read next depends on the other options alone. -/
theorem map_bind_congr {r r' : Except Fault Options} {f : Options → Except Fault Options}
    (h : r.map untracked = r'.map untracked)
    (hf : ∀ o o' : Options, o.untracked = o'.untracked →
      (f o).map untracked = (f o').map untracked) :
    (r >>= f).map untracked = (r' >>= f).map untracked := by
  rcases r with fault | o
  · rcases r' with fault' | o'
    · exact congrArg (fun r : Except Fault Options => r.map untracked) h
    · cases h
  · rcases r' with fault' | o'
    · cases h
    · exact hf o o' (Except.ok.inj h)

section

variable {o : Options} {word : String} {option : Valued}

theorem read_value (h : valued? word = some option) (value : String) (rest : List String) :
    o.read (word :: value :: rest) = (o.set option value >>= fun o' => o'.read rest) := by
  rw [read.eq_def]
  simp only [h]

theorem read_flag (h : valued? word = none) (hword : (word == "--write-back") = true)
    (rest : List String) :
    o.read (word :: rest) = { o with tracking := .writeBack }.read rest := by
  rw [read.eq_def]
  simp only [h, if_pos hword]

theorem read_image (h : valued? word = none) (hword : ¬ (word == "--write-back") = true)
    (hnone : o.image?.isNone = true) (rest : List String) :
    o.read (word :: rest) = { o with image? := some word }.read rest := by
  rw [read.eq_def]
  simp only [h, if_neg hword, if_pos hnone]

theorem read_unknown (h : valued? word = none) (hword : ¬ (word == "--write-back") = true)
    (hsome : ¬ o.image?.isNone = true) (rest : List String) :
    o.read (word :: rest) = .error (.unknownArgument word) := by
  rw [read.eq_def]
  simp only [h, if_neg hword, if_neg hsome]
  rfl

end

/-- Words are read the same way whatever the tracking so far. Induction along the reading. -/
theorem read_untracked (o : Options) (words : List String) {o' : Options}
    (h : o.untracked = o'.untracked) :
    (o.read words).map untracked = (o'.read words).map untracked := by
  have himage : ∀ {o o' : Options}, o.untracked = o'.untracked → o.image? = o'.image? :=
    fun h => congrArg (·.image?) h
  fun_induction read o words generalizing o' with
  | case1 o => exact congrArg Except.ok h
  | case2 o word option hoption =>
    unfold read
    rw [hoption]
  | case3 o word option hoption value rest ih =>
    have hset : (o.set option value).map untracked = (o'.set option value).map untracked := by
      rw [← set_untracked, ← set_untracked, h]
    rw [read_value hoption]
    exact map_bind_congr hset fun options _ => ih options
  | case4 o word rest hoption hword ih =>
    rw [read_flag hoption hword]
    exact ih h
  | case5 o word rest hoption hword hnone ih =>
    rw [read_image hoption hword (himage h ▸ hnone)]
    exact ih (congrArg (fun o : Options => { o with image? := some word }) h)
  | case6 o word rest hoption hword hsome =>
    rw [read_unknown hoption hword (himage h ▸ hsome)]
    rfl

/-- The option for tracking, where it is not taken as a value, changes no other option. Induction
along the reading of the words before it. -/
theorem read_writeBack {o : Options} {before : List String}
    (h : ∀ option, o.read before ≠ .error (.missingValue option)) (after : List String) :
    (o.read (before ++ "--write-back" :: after)).map untracked =
      (o.read (before ++ after)).map untracked := by
  fun_induction read o before with
  | case1 o =>
    rw [List.nil_append, List.nil_append, read_flag (by decide) (by decide)]
    exact read_untracked _ after rfl
  | case2 o word option hoption => exact absurd rfl (h option)
  | case3 o word option hoption value rest ih =>
    simp only [List.cons_append, read_value hoption]
    cases hs : o.set option value with
    | error fault => rfl
    | ok options =>
      refine ih options ?_
      rwa [hs] at h
  | case4 o word rest hoption hword ih =>
    rw [List.cons_append, List.cons_append, read_flag hoption hword, read_flag hoption hword]
    exact ih h
  | case5 o word rest hoption hword hnone ih =>
    rw [List.cons_append, List.cons_append, read_image hoption hword hnone,
      read_image hoption hword hnone]
    exact ih h
  | case6 o word rest hoption hword hsome =>
    rw [List.cons_append, List.cons_append, read_unknown hoption hword hsome,
      read_unknown hoption hword hsome]

end Options

end Cli

end PagedMemory
