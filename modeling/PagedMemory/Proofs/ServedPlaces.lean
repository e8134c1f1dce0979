import PagedMemory.Proofs.OpenDescriptors

/-!
# Where served files lie

A name is looked up from the root of a served directory, and two dots in it lead to the parent, as
in any path. What the name does is told without the tree: it climbs some times above the place where
it starts, and goes down from there by some names. A name that does not climb stays below the root;
one that climbs leaves it, and comes back only by the names of the root itself.

- `Way.ofSteps`: what a list of steps amounts to;
- `Tree.LeadsTo`, `Tree.read_eq_ok_iff`: what there must be on the way and at the end of a path that
  can be read;
- `Tree.locate_join`: where a name leads that is looked up in a root;
- `Served.opened_below_iff`: which names are opened, and that a file that was opened lies below the
  root exactly if its name goes down again by all that it has climbed over.
-/

namespace PagedMemory

/-! ## What steps amount to -/

/-- Steps when each climb has taken back the name before it. -/
structure Way where
  /-- How often the steps climb above the place where they start. -/
  climbs : Nat
  /-- The names by which they go down from there. -/
  names : List String
deriving DecidableEq, Repr

namespace Way

/-- One step more. Two dots take back the last name; where there is none, they climb. -/
def next (way : Way) (step : String) : Way :=
  if step = ".." then
    match way.names with
    | [] => ⟨way.climbs + 1, []⟩
    | name :: names => ⟨way.climbs, (name :: names).dropLast⟩
  else ⟨way.climbs, way.names ++ [step]⟩

/-- What a list of steps amounts to. -/
def ofSteps (steps : List String) : Way := steps.foldl next ⟨0, []⟩

/-- Where the way leads from a place. Above the top there is only the top. -/
def target (way : Way) (place : Place) : Place :=
  place.take (place.length - way.climbs) ++ way.names

/-- A step leads on from where the way leads. -/
theorem target_next (way : Way) (step : String) (place : Place) :
    (way.next step).target place =
      if step == ".." then (way.target place).dropLast else way.target place ++ [step] := by
  obtain ⟨climbs, names⟩ := way
  by_cases hstep : step = ".."
  · rw [if_pos (beq_iff_eq.2 hstep), next, if_pos hstep]
    cases names with
    | nil =>
      show place.take (place.length - (climbs + 1)) ++ [] =
        (place.take (place.length - climbs) ++ []).dropLast
      have hlength : min (min (place.length - climbs) place.length - 1) (place.length - climbs) =
          place.length - (climbs + 1) := by omega
      rw [List.append_nil, List.append_nil, List.dropLast_eq_take, List.length_take, List.take_take,
        hlength]
    | cons name names =>
      show place.take (place.length - climbs) ++ (name :: names).dropLast =
        (place.take (place.length - climbs) ++ name :: names).dropLast
      rw [List.dropLast_append_of_ne_nil (List.cons_ne_nil name names)]
  · rw [if_neg (mt beq_iff_eq.1 hstep), next, if_neg hstep, target, target, List.append_assoc]

/-- Steps lead where they amount to. -/
theorem target_ofSteps (steps : List String) (place : Place) :
    (ofSteps steps).target place = place.walk steps := by
  have hstart : target ⟨0, []⟩ place = place := by
    rw [target, Nat.sub_zero, List.take_length, List.append_nil]
  conv_rhs => rw [← hstart]
  exact (List.foldl_hom (target · place) fun way step => (target_next way step place).symm).symm

/-- Steps that are all names go down by them. -/
theorem ofSteps_of_names {steps : List String} (h : ".." ∉ steps) : ofSteps steps = ⟨0, steps⟩ := by
  induction steps using List.reverseRecOn with
  | nil => rfl
  | append_singleton steps step ih =>
    rw [List.mem_append, List.mem_singleton, not_or] at h
    have hstep : step ≠ ".." := fun e => h.2 e.symm
    have hsteps := ih h.1
    rw [ofSteps] at hsteps
    rw [ofSteps, List.foldl_append, hsteps, List.foldl_cons, List.foldl_nil, next, if_neg hstep]

/-- Names without climbs are added to the place where they start. -/
theorem target_of_names (names : List String) (place : Place) :
    target ⟨0, names⟩ place = place ++ names := by
  rw [target, Nat.sub_zero, List.take_length]

/-- The way leads back to where it started, or below, exactly if it goes down again by the names
over which it climbed. -/
theorem prefix_target_iff (way : Way) (place : Place) :
    place <+: way.target place ↔ place.drop (place.length - way.climbs) <+: way.names := by
  conv_lhs => lhs; rw [← List.take_append_drop (place.length - way.climbs) place]
  exact List.prefix_append_right_inj _

end Way

/-! ## The steps of a joined path -/

namespace Text

/-- A separator ends the fields before it. -/
theorem fieldsOf_append_sep (sep : Char) (cs ds : List Char) :
    fieldsOf sep (cs ++ sep :: ds) = fieldsOf sep cs ++ fieldsOf sep ds := by
  induction cs with
  | nil => simp only [List.nil_append, fieldsOf, if_true, List.singleton_append]
  | cons c cs ih =>
    rw [List.cons_append, fieldsOf, fieldsOf, ih]
    by_cases hc : c = sep
    · rw [if_pos hc, if_pos hc, List.cons_append]
    · rw [if_neg hc, if_neg hc]
      rcases hf : fieldsOf sep cs with _ | ⟨f, fs⟩
      · exact absurd hf (fieldsOf_ne_nil sep cs)
      · rfl

end Text

namespace Path

/-- Slashes at the front of a name add no step. -/
theorem steps_relative (name : String) : steps (relative name) = steps name := by
  have hdrop : ∀ cs : List Char,
      ((Text.fieldsOf '/' (cs.dropWhile (· == '/'))).map String.ofList).filter (!stays ·) =
        ((Text.fieldsOf '/' cs).map String.ofList).filter (!stays ·) := by
    intro cs
    induction cs with
    | nil => rfl
    | cons c cs ih =>
      by_cases hc : c = '/'
      · subst hc
        rw [List.dropWhile_cons_of_pos rfl, ih, Text.fieldsOf, if_pos rfl, List.map_cons]
        rfl
      · rw [List.dropWhile_cons, if_neg fun e => hc (beq_iff_eq.1 e)]
  rw [steps, components, Text.fields, relative, String.toList_ofList]
  exact hdrop name.toList

/-- A name without slashes at its front does not lead from the top. -/
theorem not_isAbsolute_relative (name : String) : isAbsolute (relative name) = false := by
  rw [isAbsolute, relative, String.toList_ofList]
  have hhead := List.head?_dropWhile_not (· == '/') name.toList
  cases hcs : (name.toList.dropWhile (· == '/')).head? with
  | none => rfl
  | some c =>
    rw [hcs] at hhead
    exact hhead

/-- A path from a root that is written out starts where the root does. -/
theorem isAbsolute_append {root : String} (h : root ≠ "") (path : String) :
    isAbsolute (root ++ path) = isAbsolute root := by
  have hne : root.toList ≠ [] := fun e => h (String.toList_eq_nil_iff.1 e)
  rw [isAbsolute, isAbsolute, String.toList_append, List.head?_append_of_ne_nil _ hne]

/-- The name is looked up where the root is. -/
theorem isAbsolute_join (root name : String) :
    isAbsolute (join root (relative name)) = isAbsolute root := by
  rw [join]
  by_cases hroot : root = ""
  · subst hroot
    exact not_isAbsolute_relative name
  · rw [if_neg fun e => hroot (beq_iff_eq.1 e)]
    split
    · exact isAbsolute_append hroot _
    · rw [String.append_assoc, isAbsolute_append hroot]

/-- A joined path goes by the steps of the root, and then by the components of the name. -/
theorem components_join (root name : String) :
    ∃ above, components (join root name) = above ++ components name ∧
      above.filter (!stays ·) = steps root := by
  rw [join]
  by_cases hroot : root = ""
  · subst hroot
    exact ⟨[], rfl, by decide⟩
  rw [if_neg fun e => hroot (beq_iff_eq.1 e)]
  split
  case isTrue hslash =>
    obtain ⟨above, habove⟩ := List.getLast?_eq_some_iff.1 (beq_iff_eq.1 hslash)
    refine ⟨(Text.fieldsOf '/' above).map String.ofList, ?_, ?_⟩
    · rw [components, Text.fields, String.toList_append, habove, List.append_assoc,
        List.singleton_append, Text.fieldsOf_append_sep, List.map_append]
      rfl
    · rw [steps, components, Text.fields, habove, Text.fieldsOf_append_sep, List.map_append,
        List.filter_append]
      exact (List.append_nil _).symm
  case isFalse =>
    refine ⟨components root, ?_, rfl⟩
    rw [components, Text.fields, String.toList_append, String.toList_append, List.append_assoc]
    exact (congrArg (List.map String.ofList)
      (Text.fieldsOf_append_sep '/' root.toList name.toList)).trans List.map_append

end Path

/-! ## Following a path -/

/-- Where components lead from a place, whether or not there is anything. -/
def Place.follow (place : Place) (components : List String) : Place :=
  place.walk (components.filter (!Path.stays ·))

/-- The first component is followed before the others. -/
theorem Place.follow_cons (place : Place) (component : String) (components : List String) :
    place.follow (component :: components) = (place.follow [component]).follow components := by
  show place.follow ([component] ++ components) = _
  rw [follow, List.filter_append, walk_append]
  rfl

theorem Place.follow_singleton (place : Place) (component : String) :
    place.follow [component] = if Path.stays component then place
      else if component == ".." then place.dropLast else place ++ [component] := by
  rw [follow, List.filter_cons]
  cases Path.stays component <;> rfl

namespace Tree

variable {tree : Tree} {here place : Place} {path root name : String}

/-- A chain that gives a value has passed one on. -/
theorem exists_of_bind {ε α β : Type} {x : Except ε α} {f : α → Except ε β} {b : β}
    (h : (x >>= f) = .ok b) : ∃ a, x = .ok a ∧ f a = .ok b := by
  cases x with
  | error e => cases h
  | ok a => exact ⟨a, rfl, h⟩

/-- A name that is looked up in a root leads from the place of the root as far as its steps. -/
theorem locate_join (here : Place) (root name : String) :
    locate here (Path.join root (Path.relative name)) =
      (Way.ofSteps (Path.steps name)).target (locate here root) := by
  obtain ⟨above, hcomponents, habove⟩ := Path.components_join root (Path.relative name)
  have hsteps : Path.steps (Path.join root (Path.relative name)) =
      Path.steps root ++ Path.steps name := by
    rw [Path.steps, hcomponents, List.filter_append, habove, ← Path.steps_relative name]
    rfl
  rw [locate, hsteps, Path.isAbsolute_join, Place.walk_append, Way.target_ofSteps]
  rfl

/-- Components can be followed from a place: each is entered from a directory, and none is longer
than a name may be. -/
structure Passes (tree : Tree) (start : Place) (components : List String) : Prop where
  short : ∀ c ∈ components, c.utf8ByteSize ≤ 255
  directory : ∀ k < components.length,
    tree.node? (start.follow (components.take k)) = some .directory

/-- A path leads to a file with these contents. -/
structure LeadsTo (tree : Tree) (here : Place) (path : String) (data : Array UInt8) : Prop where
  /-- It is a path: at least one byte and at most 4095, none of them NUL. -/
  written : '\x00' ∉ path.toList ∧ path ≠ "" ∧ path.utf8ByteSize < 4096
  passes : tree.Passes (if Path.isAbsolute path then [] else here) (Path.components path)
  file : tree.node? (locate here path) = some (.file data)

variable {component : String} {components : List String} {start : Place} {data : Array UInt8}

/-- A component is entered from a directory, and leads on by at most one step. -/
theorem enter_eq_ok (h : tree.enter here component = .ok place) :
    tree.node? here = some .directory ∧ component.utf8ByteSize ≤ 255 ∧
      place = here.follow [component] := by
  rw [enter] at h
  rw [Place.follow_singleton]
  split at h
  case h_1 hhere =>
    refine ⟨hhere, ?_⟩
    by_cases hstays : Path.stays component
    · rw [if_pos hstays] at h ⊢
      rw [Path.stays, Bool.or_eq_true, beq_iff_eq, beq_iff_eq] at hstays
      refine ⟨?_, (Except.ok.inj h).symm⟩
      rcases hstays with rfl | rfl <;> decide
    rw [if_neg hstays] at h ⊢
    by_cases hclimb : component == ".."
    · rw [if_pos hclimb] at h ⊢
      refine ⟨?_, (Except.ok.inj h).symm⟩
      rw [beq_iff_eq.1 hclimb]
      decide
    rw [if_neg hclimb] at h ⊢
    split at h
    · cases h
    case isFalse hshort =>
      refine ⟨Nat.not_lt.1 hshort, ?_⟩
      split at h
      · exact (Except.ok.inj h).symm
      · cases h
  case h_2 => cases h
  case h_3 => cases h

/-- A component that is no longer than a name leads from a directory to whatever there is. -/
theorem enter_of_directory (hhere : tree.node? here = some .directory)
    (hshort : component.utf8ByteSize ≤ 255)
    (hplace : (tree.node? (here.follow [component])).isSome) :
    tree.enter here component = .ok (here.follow [component]) := by
  rw [Place.follow_singleton] at hplace ⊢
  simp only [enter, hhere]
  by_cases hstays : Path.stays component
  · rw [if_pos hstays, if_pos hstays]
  rw [if_neg hstays] at hplace ⊢
  rw [if_neg hstays]
  by_cases hclimb : component == ".."
  · rw [if_pos hclimb, if_pos hclimb]
  rw [if_neg hclimb] at hplace ⊢
  rw [if_neg hclimb, if_neg (Nat.not_lt.2 hshort)]
  obtain ⟨node, hnode⟩ := Option.isSome_iff_exists.1 hplace
  rw [hnode]

/-- The first component is entered before the others. -/
theorem passes_cons : tree.Passes start (component :: components) ↔
    tree.node? start = some .directory ∧ component.utf8ByteSize ≤ 255 ∧
      tree.Passes (start.follow [component]) components := by
  have hrest : ∀ k, start.follow ((component :: components).take (k + 1)) =
      (start.follow [component]).follow (components.take k) :=
    fun k => Place.follow_cons start component (components.take k)
  constructor
  · rintro ⟨hshort, hdirectory⟩
    refine ⟨hdirectory 0 (Nat.succ_pos _), hshort _ List.mem_cons_self,
      fun c hc => hshort c (List.mem_cons_of_mem _ hc), fun k hk => ?_⟩
    rw [← hrest]
    exact hdirectory (k + 1) (Nat.succ_lt_succ hk)
  · rintro ⟨hstart, hfirst, hshort, hdirectory⟩
    refine ⟨List.forall_mem_cons.2 ⟨hfirst, hshort⟩, fun k hk => ?_⟩
    cases k with
    | zero => exact hstart
    | succ k =>
      rw [hrest]
      exact hdirectory k (Nat.lt_of_succ_lt_succ hk)

/-- Components lead to a place that there is exactly if they can be followed, and this is where
their steps lead. Induction on the components, over all places where they may start. -/
theorem foldlM_enter_eq_ok_iff (hplace : (tree.node? place).isSome) :
    components.foldlM tree.enter start = .ok place ↔
      tree.Passes start components ∧ place = start.follow components := by
  induction components generalizing start with
  | nil =>
    constructor
    · intro h
      exact ⟨⟨nofun, nofun⟩, (Except.ok.inj h).symm⟩
    · rintro ⟨-, rfl⟩
      rfl
  | cons component components ih =>
    rw [List.foldlM_cons, passes_cons, Place.follow_cons start component components]
    constructor
    · intro h
      obtain ⟨next, hstep, hrest⟩ := exists_of_bind h
      obtain ⟨hstart, hshort, rfl⟩ := enter_eq_ok hstep
      obtain ⟨hpasses, hend⟩ := ih.1 hrest
      exact ⟨⟨hstart, hshort, hpasses⟩, hend⟩
    · rintro ⟨⟨hstart, hshort, hpasses⟩, hend⟩
      -- where the first component leads, there is the next directory, or the end
      have hnext : (tree.node? (start.follow [component])).isSome := by
        cases components with
        | nil => rwa [hend] at hplace
        | cons second rest => exact Option.isSome_of_eq_some (passes_cons.1 hpasses).1
      rw [enter_of_directory hstart hshort hnext]
      exact ih.2 ⟨hpasses, hend⟩

/-- A path that is one is followed component by component. -/
theorem resolve_eq_ok_iff : tree.resolve here path = .ok place ↔
    ('\x00' ∉ path.toList ∧ path ≠ "" ∧ path.utf8ByteSize < 4096) ∧
      (Path.components path).foldlM tree.enter (if Path.isAbsolute path then [] else here) =
        .ok place := by
  rw [resolve]
  by_cases hnul : path.toList.contains '\x00'
  · rw [if_pos hnul]
    exact iff_of_false nofun fun h => h.1.1 (List.contains_iff_mem.1 hnul)
  rw [if_neg hnul]
  by_cases hempty : path == ""
  · rw [if_pos hempty]
    exact iff_of_false nofun fun h => h.1.2.1 (beq_iff_eq.1 hempty)
  rw [if_neg hempty]
  by_cases hlong : 4096 ≤ path.utf8ByteSize
  · rw [if_pos hlong]
    exact iff_of_false nofun fun h => absurd h.1.2.2 (Nat.not_lt.2 hlong)
  rw [if_neg hlong]
  exact (and_iff_right ⟨mt List.contains_iff_mem.2 hnul, mt beq_iff_eq.2 hempty,
    Nat.not_le.1 hlong⟩).symm

/-- What can be read are the files to which paths lead. -/
theorem read_eq_ok_iff : tree.read here path = .ok data ↔ tree.LeadsTo here path data := by
  constructor
  · intro h
    obtain ⟨place, hresolve, h⟩ := exists_of_bind h
    obtain ⟨hwritten, hfollow⟩ := resolve_eq_ok_iff.1 hresolve
    split at h
    case h_1 file hnode =>
      obtain rfl := Except.ok.inj h
      obtain ⟨hpasses, rfl⟩ := (foldlM_enter_eq_ok_iff (Option.isSome_of_eq_some hnode)).1 hfollow
      exact ⟨hwritten, hpasses, hnode⟩
    case h_2 => cases h
    case h_3 => cases h
  · rintro ⟨hwritten, hpasses, hfile⟩
    have hfollow := (foldlM_enter_eq_ok_iff (Option.isSome_of_eq_some hfile)).2 ⟨hpasses, rfl⟩
    have hresolve : tree.resolve here path = .ok (locate here path) :=
      resolve_eq_ok_iff.2 ⟨hwritten, hfollow⟩
    simp only [read, hresolve, bind, Except.bind, hfile]
    rfl

/-- A name leads to a file only from a root that is a directory. -/
theorem LeadsTo.directory (h : tree.LeadsTo here (Path.join root (Path.relative name)) data) :
    tree.node? (locate here root) = some .directory := by
  obtain ⟨above, hcomponents, hsteps⟩ := Path.components_join root (Path.relative name)
  have hdirectory := h.passes.directory above.length
  rw [hcomponents, Path.isAbsolute_join, List.take_left' rfl, List.length_append, Place.follow,
    hsteps] at hdirectory
  refine hdirectory (Nat.lt_add_of_pos_right (List.length_pos_of_ne_nil fun hnil => ?_))
  exact Text.fieldsOf_ne_nil '/' _ (List.map_eq_nil_iff.1 hnil)

end Tree

/-! ## Below the root -/

/-- The place is the end of a way down from the other. -/
def Place.Below (place root : Place) : Prop := root <+: place ∧ place ≠ root

namespace Served

/-- A name is opened exactly if there are contents under it, and then it is open with these. -/
theorem openName_cases (name : String) (served : Served) :
    (∃ data fd after, served.fetch name = .ok data ∧
      (FileStore.openName name).run served = ⟨.ok fd, after, []⟩ ∧
        after.opened.get? fd = some ⟨data, 0⟩) ∨
    ∃ fault e, served.fetch name = .error fault ∧
      (FileStore.openName name).run served = ⟨.error e, served, []⟩ := by
  rw [TabledStore.run_openName]
  simp only [TabledStore.lookup]
  cases hfetch : served.fetch name with
  | ok data =>
    exact .inl ⟨data, _, _, rfl, rfl, (DescriptorTable.place_snd data _ _).trans (if_pos rfl)⟩
  | error fault => cases fault <;> exact .inr ⟨_, _, rfl, rfl⟩

/-- A name is opened exactly if it leads to a file of the tree, and it is that file that is open.
The file lies below the root exactly if the name goes down again by all that it has climbed over; a
name without two dots climbs over nothing. -/
theorem opened_below_iff (tree : Tree) (here : Place) (root name : String) {served : Served}
    (hserved : served.fetch = fetchIn tree here root) :
    let o := (FileStore.openName name).run served
    let start := Tree.locate here root
    let way := Way.ofSteps (Path.steps name)
    ((∃ fd, o.result = .ok fd) ↔
      ∃ data, tree.LeadsTo here (Path.join root (Path.relative name)) data) ∧
    ∀ fd, o.result = .ok fd → ∃ data, o.state.opened.get? fd = some ⟨data, 0⟩ ∧
      tree.node? (way.target start) = some (.file data) ∧
      ((way.target start).Below start ↔
        start.drop (start.length - way.climbs) <+: way.names) ∧
      (".." ∉ Path.steps name → way.target start = start ++ Path.steps name) := by
  intro o start way
  have hfetch : ∀ data, served.fetch name = .ok data ↔
      tree.LeadsTo here (Path.join root (Path.relative name)) data := fun data => by
    rw [hserved]
    exact Tree.read_eq_ok_iff
  rcases openName_cases name served with
    ⟨data, fd, after, hdata, hrun, hget⟩ | ⟨fault, e, hfault, hrun⟩
  · have hleads := (hfetch data).1 hdata
    refine ⟨iff_of_true ⟨fd, congrArg Outcome.result hrun⟩ ⟨data, hleads⟩, fun fd' hfd' => ?_⟩
    obtain rfl : fd = fd' := Except.ok.inj ((congrArg Outcome.result hrun).symm.trans hfd')
    have hfile : tree.node? (way.target start) = some (.file data) := by
      rw [← hleads.file, Tree.locate_join]
    refine ⟨data, ?_, hfile, ?_, fun hnames => ?_⟩
    · rw [show o.state = after from congrArg Outcome.state hrun, hget]
    · rw [← way.prefix_target_iff start]
      refine and_iff_left fun hsame => ?_
      -- the root is a directory
      rw [hsame, hleads.directory] at hfile
      cases hfile
    · show (Way.ofSteps (Path.steps name)).target start = _
      rw [Way.ofSteps_of_names hnames, Way.target_of_names]
  · have hresult : o.result = .error e := congrArg Outcome.result hrun
    refine ⟨iff_of_false ?_ ?_, fun fd hfd => ?_⟩
    · rintro ⟨fd, hfd⟩
      cases hresult.symm.trans hfd
    · rintro ⟨data, hleads⟩
      cases hfault.symm.trans ((hfetch data).2 hleads)
    · cases hresult.symm.trans hfd

/-- A secret next to the directory that is served. -/
def besideRoot : Tree :=
  ⟨[(["srv", "secret.txt"], #[115, 101, 99, 114, 101, 116])], [["srv"], ["srv", "root"]]⟩

/-- Two dots give it out. -/
theorem opened_below_iff_besideRoot :
    let served := ofFetch (fetchIn besideRoot [] "/srv/root")
    let o := (FileStore.openName "../secret.txt").run served
    served.fetch = fetchIn besideRoot [] "/srv/root" ∧ o.result = .ok 0 ∧
    ∃ data, o.state.opened.get? 0 = some ⟨data, 0⟩ ∧
      besideRoot.node? ["srv", "secret.txt"] = some (.file data) ∧
      ¬ Place.Below ["srv", "secret.txt"] ["srv", "root"] := by
  intro served o
  have hresult : o.result = .ok 0 := by
    have hfetch : fetchIn besideRoot [] "/srv/root" "../secret.txt" =
        .ok #[115, 101, 99, 114, 101, 116] := by rfl
    have hname : TabledStore.lookup served "../secret.txt" =
        .ok #[115, 101, 99, 114, 101, 116] := by
      simp only [TabledStore.lookup, served, ofFetch, hfetch]
    show ((FileStore.openName "../secret.txt").run served).result = _
    rw [TabledStore.run_openName, hname]
    rfl
  have hstart : Tree.locate [] "/srv/root" = ["srv", "root"] := by rfl
  have hway : Way.ofSteps (Path.steps "../secret.txt") = ⟨1, ["secret.txt"]⟩ := by rfl
  have htarget : Way.target ⟨1, ["secret.txt"]⟩ ["srv", "root"] = ["srv", "secret.txt"] := by rfl
  have hopened := (opened_below_iff besideRoot [] "/srv/root" "../secret.txt" rfl).2 0 hresult
  rw [hstart, hway, htarget] at hopened
  obtain ⟨data, hget, hfile, hbelow, -⟩ := hopened
  have hdown : ¬ ["root"] <+: ["secret.txt"] := by decide
  exact ⟨rfl, hresult, data, hget, hfile, fun h => hdown (hbelow.1 h)⟩

end Served

end PagedMemory
