import PagedMemory.Proofs.Memory

/-!
# Address spaces are maps

Whatever bytes RAM held, and in whatever order spaces are created and pages mapped: each space looks
up what a finite map would, of which nothing is known but the calls that succeeded.

- `Edit`, `Memory.edit`: calls that create and map, run one after the other;
- `lastFrame`: what the finite map of a space holds, read off the calls and their results alone;
- `perform_meets`: one call changes the frames as it changes these maps;
- `lookup_eq_lastFrame`: after any calls, looking up agrees with the maps.
-/

namespace PagedMemory

/-- A call that creates a space, or maps a page of a space. -/
inductive Edit
  | create
  | map (space : Nat) (vaddr frame : UInt32)

/-- Calls with what came of them, in order. -/
abbrev EditLog := List (Edit × Except Error Unit)

namespace Edit

/-- Makes the call: a space is created with frames of the pool, or a page of a space is mapped. -/
def perform : Edit → Op Memory Unit
  | .create => Memory.create
  | .map i vaddr frame => Memory.map i vaddr frame

/-- The frame that a call gave to the page of `a` in the space `i`. -/
def given (i : Nat) (a : UInt32) : Edit × Except Error Unit → Option UInt32
  | (.map j vaddr frame, .ok ()) =>
    if j = i ∧ Page.base vaddr = Page.base a then some frame else none
  | _ => none

/-- The frame that the last successful call for it gave to the page of `a` in the space `i`. -/
def lastFrame (log : EditLog) (i : Nat) (a : UInt32) : Option UInt32 :=
  log.reverse.findSome? (given i a)

theorem lastFrame_concat (log : EditLog) (call : Edit × Except Error Unit) (i : Nat) (a : UInt32) :
    lastFrame (log ++ [call]) i a = (given i a call).or (lastFrame log i a) := by
  rw [lastFrame, List.reverse_append, List.reverse_singleton, List.singleton_append,
    List.findSome?_cons]
  cases given i a call <;> rfl

@[simp] theorem given_create (i : Nat) (a : UInt32) (r : Except Error Unit) :
    given i a (.create, r) = none := rfl

@[simp] theorem given_error (i : Nat) (a : UInt32) (edit : Edit) (e : Error) :
    given i a (edit, .error e) = none := by
  cases edit <;> rfl

end Edit

/-- Makes calls one after the other, whatever comes of each. -/
def Memory.edit (m : Memory) (edits : List Edit) : Memory × EditLog :=
  Op.runAll Edit.perform m edits

namespace Edit

open Layout

variable {spaces : List AddressSpace} {l : Layout}

/-- How a call leaves memory: with a valid layout, with all the spaces that there were, and with the
frames that pages had, but for the one that the call gave. -/
def Left (l : Layout) (spaces : List AddressSpace) (edit : Edit) (r : Except Error Unit)
    (m : Memory) : Prop :=
  ∃ (l' : Layout) (spaces' : List AddressSpace), m = l'.memory spaces' ∧ l'.Valid spaces' ∧
    spaces <+: spaces' ∧
    ∀ i a, m.frame? i a = (given i a (edit, r)).or ((l.memory spaces).frame? i a)

/-- A call that fails changes no frame. -/
theorem left_of_error {l' : Layout} {i : Nat} {touched : Nat → Prop} (hram : l'.ram = l.ram)
    (hev : Evolves spaces i touched l l') (edit : Edit) (e : Error) :
    Left l spaces edit (.error e) (l'.memory spaces) := by
  refine ⟨l', spaces, rfl, hev.valid, List.prefix_rfl, ?_⟩
  intro j a
  rw [given_error, Option.none_or]
  cases hj : spaces[j]? with
  | none => rw [frame?_memory_of_none hj, frame?_memory_of_none hj]
  | some space => rw [frame?_memory_of_some hj, frame?_memory_of_some hj, hram]

/-- A new space takes a number under which no page had a frame. -/
theorem left_create {l' : Layout} {space : AddressSpace} (hl' : l'.Valid (spaces ++ [space]))
    (hev : Evolves spaces spaces.length (fun _ => False) l l')
    (hnew : ∀ vaddr, l'.ram.frame? space.directory vaddr = none) :
    Left l spaces .create (.ok ()) (l'.memory (spaces ++ [space])) := by
  refine ⟨l', _, rfl, hl', List.prefix_append _ _, ?_⟩
  intro j a
  rw [given_create, Option.none_or]
  rcases Nat.lt_trichotomy j spaces.length with hj | rfl | hj
  · obtain ⟨old, hold⟩ : ∃ old, spaces[j]? = some old := ⟨_, List.getElem?_eq_getElem hj⟩
    have hold' : (spaces ++ [space])[j]? = some old := by
      rw [List.getElem?_append_left hj, hold]
    rw [frame?_memory_of_some hold', frame?_memory_of_some hold]
    exact hev.frame j old a hold fun _ => not_false
  · rw [frame?_memory_of_some List.getElem?_concat_length, hnew,
      frame?_memory_of_none (List.getElem?_eq_none Nat.le.refl)]
  · rw [frame?_memory_of_none (List.getElem?_eq_none (by rw [List.length_append]; exact hj)),
      frame?_memory_of_none (List.getElem?_eq_none (Nat.le_of_lt hj))]

/-- A page that is mapped has its frame, and all others have those that they had. -/
theorem left_map {l' : Layout} {i : Nat} {space : AddressSpace} {vaddr frame : UInt32}
    (hi : spaces[i]? = some space) (hev : Evolves spaces i (· = Page.number vaddr) l l')
    (hframe : l'.ram.frame? space.directory vaddr = some frame) :
    Left l spaces (.map i vaddr frame) (.ok ()) (l'.memory spaces) := by
  refine ⟨l', spaces, rfl, hev.valid, List.prefix_rfl, ?_⟩
  intro j a
  show _ = Option.or (if i = j ∧ Page.base vaddr = Page.base a then some frame else none) _
  by_cases h : i = j ∧ Page.base vaddr = Page.base a
  · obtain ⟨rfl, hpage⟩ := h
    have hpage := Page.base_eq_base_iff_number.1 hpage
    rw [if_pos ⟨rfl, Page.base_eq_base_iff_number.2 hpage⟩, frame?_memory_of_some hi,
      ← Ram.frame?_congr hpage, hframe]
    rfl
  · rw [if_neg h, Option.none_or]
    refine hev.frame?_memory fun hji hpage => h ⟨hji.symm, ?_⟩
    exact Page.base_eq_base_iff_number.2 hpage.symm

/-- One call changes the frames as it changes the maps. -/
theorem perform_meets (hl : l.Valid spaces) (edit : Edit) :
    Op.Meets (· = l.memory spaces) edit.perform (fun _ => Left l spaces edit (.ok ()))
      (fun e => Left l spaces edit (.error e)) := by
  cases edit with
  | create =>
    refine (Memory.create_meets hl).weaken (fun _ h => h) ?_ ?_
    · rintro _ _ ⟨l', space, rfl, hl', hev, hnew, -⟩
      exact left_create hl' hev hnew
    · rintro e _ ⟨-, l', rfl, hram, hev⟩
      exact left_of_error hram hev _ e
  | map i vaddr frame =>
    refine (Memory.map_meets hl i vaddr frame).weaken (fun _ h => h) ?_ ?_
    · rintro _ _ ⟨l', space, hi, rfl, hev, hframe⟩
      exact left_map hi hev hframe
    · rintro e _ ⟨-, l', rfl, hram, hev⟩
      exact left_of_error hram hev _ e

end Edit

namespace Memory

open Edit Layout

/-- Memory has a valid layout, in which pages have the frames of the maps. -/
def MapsAs (m : Memory) (log : EditLog) : Prop :=
  ∃ l spaces, m = Layout.memory l spaces ∧ l.Valid spaces ∧
    ∀ i a, (l.memory spaces).frame? i a = lastFrame log i a

/-- One more call is one more entry of the log. -/
theorem MapsAs.perform {m : Memory} {log : EditLog} (h : m.MapsAs log) (edit : Edit) :
    (edit.perform.run m).state.MapsAs (log ++ [(edit, (edit.perform.run m).result)]) := by
  obtain ⟨l, spaces, rfl, hl, hframe⟩ := h
  obtain ⟨l', spaces', hm', hl', -, hframe'⟩ := (perform_meets hl edit).outcome rfl
  refine ⟨l', spaces', hm', hl', ?_⟩
  intro i a
  rw [← hm', hframe', hframe, lastFrame_concat]

/-- After any calls memory maps as their log says. -/
theorem mapsAs_edit (ram : Ram) (range : Range) (edits : List Edit) :
    ((start ram range).edit edits).1.MapsAs ((start ram range).edit edits).2 :=
  Op.runAll_invariant (I := MapsAs)
    ⟨Layout.start ram range, [], rfl, valid_start ram range, fun _ _ => rfl⟩
    (fun _ _ edit h => h.perform edit) edits

/-- Looking up agrees with the maps after any calls, and one more call changes what a page leads to
only by mapping that page of that space. -/
theorem lookup_eq_lastFrame (ram : Ram) (range : Range) (edits : List Edit) :
    let m := ((start ram range).edit edits).1
    let log := ((start ram range).edit edits).2
    (∀ (i : Nat) (space : AddressSpace), m.spaces[i]? = some space → ∀ a : UInt32,
      space.lookup m.ram a =
        .ok ((lastFrame log i a).map fun frame => frame ||| Page.offset a)) ∧
    ∀ (edit : Edit) (i : Nat) (space : AddressSpace), m.spaces[i]? = some space →
      let o := edit.perform.run m
      o.state.spaces[i]? = some space ∧
      ∀ a : UInt32, (∀ vaddr frame, o.result = .ok () → edit = .map i vaddr frame →
          Page.base vaddr ≠ Page.base a) →
        space.lookup o.state.ram a = space.lookup m.ram a := by
  obtain ⟨l, spaces, hm, hl, hframe⟩ := mapsAs_edit ram range edits
  dsimp only
  rw [hm]
  constructor
  · intro i space hi a
    rw [← hframe]
    exact hl.lookup_memory hi a
  · intro edit i space (hi : spaces[i]? = some space)
    obtain ⟨l', spaces', hm', hl', hpre, hframe'⟩ := (perform_meets hl edit).outcome rfl
    have hi' : spaces'[i]? = some space := by
      obtain ⟨more, rfl⟩ := hpre
      rw [List.getElem?_append_left (List.getElem?_eq_some_iff.1 hi).1, hi]
    rw [hm'] at hframe' ⊢
    refine ⟨hi', ?_⟩
    intro a ha
    -- the call gives this page no frame: it failed, or it maps another page
    have hgiven : given i a (edit, (edit.perform.run (l.memory spaces)).result) = none := by
      cases hr : (edit.perform.run (l.memory spaces)).result with
      | error e => exact given_error _ _ _ _
      | ok u =>
        cases edit with
        | create => rfl
        | map j vaddr frame =>
          refine if_neg ?_
          rintro ⟨rfl, hpage⟩
          exact ha vaddr frame hr rfl hpage
    have hlook := hl'.lookup_memory hi' a
    rw [hframe', hgiven, Option.none_or] at hlook
    exact hlook.trans (hl.lookup_memory hi a).symm

/-- A page that is mapped leads to its frame, and the page next to it leads nowhere. -/
theorem lookup_eq_lastFrame_onePage : ∃ (ram : Ram) (space : AddressSpace),
    let m := ((start ram ⟨0, 65536⟩).edit [.create, .map 0 0x00400000 0x7000]).1
    m.spaces[0]? = some space ∧ space.lookup m.ram 0x00400123 = .ok (some 0x7123) ∧
      space.lookup m.ram 0x00401123 = .ok none := by
  obtain ⟨zero, hzero⟩ : ∃ zero, Ram.zeroed 65536 = .ok zero := ⟨_, rfl⟩
  -- a frame for the directory, and one for the table
  have hroom : (Layout.start zero ⟨0, 65536⟩).Roomy 2 :=
    roomy_start (by rw [Ram.size_of_zeroed hzero]; decide) (by decide)
  obtain ⟨l, space, hcreate, hl, hroom⟩ := create_of_roomy (valid_start zero ⟨0, 65536⟩) hroom
  obtain ⟨l', es, hmap⟩ := map_of_roomy (i := 0) hl 0x00400000 0x7000 Nat.one_pos (by decide)
    (by decide) hroom
  obtain ⟨r, hedit⟩ : ∃ r, (start zero ⟨0, 65536⟩).edit [.create, .map 0 0x00400000 0x7000] =
      (l'.memory [space], [(.create, r), (.map 0 0x00400000 0x7000, .ok ())]) := by
    refine ⟨(create.run ((Layout.start zero ⟨0, 65536⟩).memory [])).result, ?_⟩
    simp only [edit, Op.runAll, List.foldl_cons, List.foldl_nil, Edit.perform, ← memory_start]
    rw [hcreate, hmap]
    rfl
  have hlookup := (lookup_eq_lastFrame zero ⟨0, 65536⟩ [.create, .map 0 0x00400000 0x7000]).1
  rw [hedit] at hlookup
  have hpage : lastFrame [(.create, r), (.map 0 0x00400000 0x7000, .ok ())] 0 0x00400123 =
      some 0x7000 := rfl
  have hnext : lastFrame [(.create, r), (.map 0 0x00400000 0x7000, .ok ())] 0 0x00401123 =
      none := rfl
  refine ⟨zero, space, ?_⟩
  rw [hedit]
  refine ⟨rfl, ?_, ?_⟩
  · rw [hlookup 0 space rfl, hpage]
    rfl
  · rw [hlookup 0 space rfl, hnext]
    rfl

end Memory

end PagedMemory
