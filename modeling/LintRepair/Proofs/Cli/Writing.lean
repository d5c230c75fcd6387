import LintRepair.Cli.Arguments

/-! Command lines that are written for a command. An option is told apart from its value by the first
equals sign, and a file from an option by its dash, so the command is read back from every arrangement
of its options, whatever their values are. -/

namespace LintRepair.Cli

/-! ### Writing a command -/

/-- A part of a command line: an option with its value attached, or files one word each. -/
inductive Part where
  | attached (o : Opt) (value : String)
  | listed (files : List String)

namespace Part

def words : Part → List String
  | attached o value => ["--" ++ o.name ++ "=" ++ value]
  | listed files => "--files" :: files

def option : Part → Opt
  | attached o _ => o
  | listed _ => .files

/-- The values that a part gives to its option. -/
def values : Part → List String
  | attached _ value => [value]
  | listed files => files

/-- Files that are words of their own have no dash in front, and there is one at least. A value that is
attached may be any text. -/
inductive Legible : Part → Prop where
  | attached (o : Opt) (value : String) : Legible (.attached o value)
  | listed {files : List String} (present : files ≠ [])
      (undashed : ∀ f ∈ files, f.toList.head? ≠ some '-') : Legible (.listed files)

theorem Legible.values_ne_nil {p : Part} (h : p.Legible) : p.values ≠ [] := by
  cases h with
  | attached o value => exact List.cons_ne_nil _ _
  | listed present => exact present

end Part

/-- The values of the options that tell where the project is. -/
def ProjectOptions.values (p : ProjectOptions) : Opt → List String
  | .repoRoot => p.repoRoot.toList
  | .config => p.config.toList
  | .output => p.output.toList
  | _ => []

namespace Command

def verb : Command → Verb
  | version => .version
  | run _ _ _ => .run
  | check _ _ => .check
  | select _ _ => .select
  | parse _ _ => .parse

/-- The files that a command is given, if it is given any. -/
def files? : Command → Option (List String)
  | run _ _ files => files
  | check _ files => files
  | select _ files => some files
  | _ => none

def values (c : Command) (o : Opt) : List String :=
  match c, o with
  | run _ transcript _, .transcript => transcript.toList
  | run _ _ files, .files => files.getD []
  | run project _ _, o => project.values o
  | check _ files, .files => files.getD []
  | check project _, o => project.values o
  | select _ files, .files => files
  | select project _, o => project.values o
  | parse ecosystem _, .ecosystem => [ecosystem]
  | parse _ rootDir, .rootDir => [rootDir]
  | _, _ => []

/-- The parts of a command line that writes a command: for every option they give the values that the
command has for it, in this order. How the options stand to each other is left open, and so is how
files are put together. -/
structure Writes (c : Command) (parts : List Part) : Prop where
  legible : ∀ p ∈ parts, p.Legible
  values : ∀ o, (parts.filter (·.option = o)).flatMap Part.values = c.values o

/-- Every value of a command with its option, the options in a fixed order. -/
def attachedParts (c : Command) : List Part :=
  c.verb.options.flatMap fun o => (c.values o).map (.attached o)

end Command

/-! ### Words -/

/-- A name without an equals sign ends at the first one; the value may have more of them. -/
theorem splitEquals_append {name : List Char} (h : '=' ∉ name) (value : List Char) :
    splitEquals (name ++ '=' :: value) = (name, some value) := by
  induction name with
  | nil => rfl
  | cons c name ih =>
      obtain ⟨hHead, hTail⟩ := not_or.mp (mt List.mem_cons.mpr h)
      rw [List.cons_append, splitEquals, if_neg (Ne.symm hHead), ih hTail]

theorem Word.of_dashes {w : String} {c : Char} {rest : List Char}
    (h : w.toList = '-' :: '-' :: c :: rest) : Word.of w =
      .long (String.ofList (splitEquals (c :: rest)).1)
        ((splitEquals (c :: rest)).2.map String.ofList) := by
  rw [Word.of, h]
  rfl

/-- A value behind an equals sign is kept as it is, be it empty or of dashes. -/
theorem Word.of_attached (o : Opt) (value : String) :
    Word.of ("--" ++ o.name ++ "=" ++ value) = .long o.name (some value) := by
  have hName : '=' ∉ o.name.toList := by cases o <;> decide +kernel
  have hDashes : "--".toList = ['-', '-'] := by decide +kernel
  have hEquals : "=".toList = ['='] := by decide +kernel
  have hText : ("--" ++ o.name ++ "=" ++ value).toList =
      '-' :: '-' :: (o.name.toList ++ '=' :: value.toList) := by
    rw [String.toList_append, String.toList_append, String.toList_append, hDashes, hEquals,
      ← List.append_cons]
    rfl
  obtain ⟨c, rest, hSome⟩ : ∃ c rest, o.name.toList ++ '=' :: value.toList = c :: rest :=
    List.exists_cons_of_ne_nil (by simp)
  rw [Word.of_dashes (hText.trans (by rw [hSome])), ← hSome, splitEquals_append hName,
    String.ofList_toList, Option.map_some, String.ofList_toList]

theorem Word.of_files : Word.of "--files" = .long Opt.files.name none := by decide +kernel

/-- Only dashes at its front make a word an option. -/
theorem Word.of_undashed {w : String} (h : w.toList.head? ≠ some '-') : Word.of w = .plain w := by
  unfold Word.of
  split <;> rename_i hText
  · rw [hText] at h
    exact absurd rfl h
  · rw [hText] at h
    exact absurd rfl h
  · rw [hText] at h
    exact absurd rfl h
  · rfl

theorem Verb.ofWord?_word (v : Verb) : Verb.ofWord? v.word = some v := by
  cases v <;> decide +kernel

theorem find?_name {options : List Opt} {o : Opt} (h : o ∈ options) :
    (options.find? fun p => p.name == o.name) = some o := by
  have hName (p q : Opt) (h : p.name = q.name) : p = q := by
    revert h
    cases p <;> cases q <;> decide +kernel
  obtain ⟨p, hFind⟩ := Option.isSome_iff_exists.mp
    (List.find?_isSome (p := fun p : Opt => p.name == o.name).mpr ⟨o, h, beq_self_eq_true _⟩)
  have hSame := List.find?_some hFind
  rw [hFind, hName p o (by simpa using hSame)]

/-! ### Reading -/

/-- What a part adds to the values that are given. -/
def Part.entry (p : Part) : Opt × List String := (p.option, p.values)

/-- No option of a single value is given twice. -/
def Single (given : Given) : Prop :=
  ∀ o : Opt, o.many = false → (given.filter (·.1 == o)).length ≤ 1

/-- Values given for an option in several places are joined in their order. -/
theorem Given.values?_of_filter {given : Given} {o : Opt} {entries : Given}
    (h : given.filter (·.1 == o) = entries) :
    given.values? o = if entries = [] then none else some (entries.flatMap Prod.snd) := by
  rw [Given.values?, h]
  cases entries <;> rfl

/-- An option that may still be given is taken up. -/
theorem Given.add_of_single {given rest : Given} {o : Opt} {values : List String}
    (hValues : values ≠ []) (hSingle : Single (given ++ (o, values) :: rest)) :
    given.add o values = .ok (given ++ [(o, values)]) := by
  rw [Given.add, if_neg (by simpa using hValues)]
  cases hMany : o.many with
  | true => rfl
  | false =>
      have hNone : given.filter (·.1 == o) = [] := by
        have hOnce := hSingle o hMany
        rw [List.filter_append, List.filter_cons, if_pos (beq_self_eq_true o), List.length_append,
          List.length_cons] at hOnce
        exact List.length_eq_zero_iff.mp (by omega)
      rw [Given.values?_of_filter hNone]
      rfl

/-- An option with its value attached ends the list before it and begins none. -/
theorem readOptions_attached {options : List Opt} {o : Opt} (hKnown : o ∈ options) {value : String}
    {given closed next : Given} {pending : Option (Opt × List String)}
    (hClose : given.close pending = .ok closed) (hAdd : closed.add o [value] = .ok next)
    (words : List String) :
    readOptions options given pending (("--" ++ o.name ++ "=" ++ value) :: words) =
      readOptions options next none words := by
  have hName : o.name ≠ "help" := by cases o <;> decide
  rw [readOptions, Word.of_attached]
  simp only [hName, if_false, find?_name hKnown, hClose, hAdd]

theorem readOptions_files {options : List Opt} (hKnown : Opt.files ∈ options) {given closed : Given}
    {pending : Option (Opt × List String)} (hClose : given.close pending = .ok closed)
    (words : List String) : readOptions options given pending ("--files" :: words) =
      readOptions options closed (some (.files, [])) words := by
  have hName : Opt.files.name ≠ "help" := by decide
  rw [readOptions, Word.of_files]
  simp only [hName, if_false, find?_name hKnown, hClose]

/-- An open list of files takes every word that has no dash at its front. -/
theorem readOptions_undashed (options : List Opt) (given : Given) {files : List String}
    (h : ∀ f ∈ files, f.toList.head? ≠ some '-') (soFar words : List String) :
    readOptions options given (some (.files, soFar)) (files ++ words) =
      readOptions options given (some (.files, soFar ++ files)) words := by
  induction files generalizing soFar with
  | nil => rw [List.nil_append, List.append_nil]
  | cons f files ih =>
      obtain ⟨hHead, hTail⟩ := List.forall_mem_cons.mp h
      have hMany : (Opt.files.many || soFar.isEmpty) = true := rfl
      rw [List.append_cons soFar, ← ih hTail, List.cons_append, readOptions, Word.of_undashed hHead]
      simp only [hMany, if_true]

/-- Whatever option is still open when they begin, the parts are taken up one after the other. -/
theorem readOptions_parts {options : List Opt} {parts : List Part} (hLegible : ∀ p ∈ parts, p.Legible)
    (hKnown : ∀ p ∈ parts, p.option ∈ options) {given closed : Given}
    {pending : Option (Opt × List String)} (hClose : given.close pending = .ok closed)
    (hSingle : Single (closed ++ parts.map Part.entry)) :
    readOptions options given pending (parts.flatMap Part.words) =
      .ok (closed ++ parts.map Part.entry) := by
  induction parts generalizing given closed pending with
  | nil => rw [List.flatMap_nil, readOptions, hClose, List.map_nil, List.append_nil]
  | cons p parts ih =>
      obtain ⟨hHead, hTail⟩ := List.forall_mem_cons.mp hLegible
      obtain ⟨hOption, hOptions⟩ := List.forall_mem_cons.mp hKnown
      rw [List.map_cons] at hSingle ⊢
      have hNext : Single (closed ++ [p.entry] ++ parts.map Part.entry) := by
        rwa [← List.append_cons]
      rw [List.flatMap_cons, List.append_cons]
      cases hHead with
      | attached o value =>
          have hAdd : closed.add o [value] = .ok (closed ++ [(o, [value])]) :=
            Given.add_of_single (List.cons_ne_nil _ _) hSingle
          rw [Part.words, List.singleton_append, readOptions_attached (o := o) hOption hClose hAdd]
          exact ih hTail hOptions rfl hNext
      | @listed files present undashed =>
          have hAdd : closed.add .files files = .ok (closed ++ [(.files, files)]) :=
            Given.add_of_single present hSingle
          rw [Part.words, List.cons_append, readOptions_files hOption hClose,
            readOptions_undashed options closed undashed, List.nil_append]
          exact ih hTail hOptions hAdd hNext

/-! ### Commands -/

namespace Command

/-- A command has values only for options that it knows. -/
theorem mem_options {c : Command} {o : Opt} (h : c.values o ≠ []) : o ∈ c.verb.options := by
  cases c <;> cases o <;> first | exact absurd rfl h | simp [verb, Verb.options]

/-- Only the option for files has more than one value. -/
theorem length_values_le (c : Command) {o : Opt} (h : o.many = false) : (c.values o).length ≤ 1 := by
  have hAtMost (value : Option String) : value.toList.length ≤ 1 := by cases value <;> simp
  cases c <;> cases o <;>
    first | exact hAtMost _ | exact Nat.zero_le 1 | exact Nat.le_refl 1 | cases h

variable {c : Command} {parts : List Part}

theorem Writes.option_mem (h : c.Writes parts) : ∀ p ∈ parts, p.option ∈ c.verb.options := by
  intro p hp
  refine mem_options fun hNone => (h.legible p hp).values_ne_nil ?_
  rw [← h.values, List.flatMap_eq_nil_iff] at hNone
  exact hNone p (List.mem_filter.mpr ⟨hp, decide_eq_true rfl⟩)

theorem filter_entry (o : Opt) (parts : List Part) :
    (parts.map Part.entry).filter (·.1 == o) = (parts.filter (·.option = o)).map Part.entry := by
  rw [List.filter_map]
  rfl

/-- There are not more parts for an option than it has values. -/
theorem Writes.length_filter_le (h : c.Writes parts) (o : Opt) :
    (parts.filter (·.option = o)).length ≤ (c.values o).length := by
  rw [← h.values]
  have hLegible : ∀ p ∈ parts.filter (·.option = o), p.Legible :=
    fun p hp => h.legible p (List.mem_filter.mp hp).1
  generalize parts.filter (·.option = o) = some at hLegible ⊢
  induction some with
  | nil => exact Nat.le_refl 0
  | cons p some ih =>
      obtain ⟨hHead, hTail⟩ := List.forall_mem_cons.mp hLegible
      have hOne : 1 ≤ p.values.length := List.length_pos_iff.mpr hHead.values_ne_nil
      have hMore := ih hTail
      rw [List.length_cons, List.flatMap_cons, List.length_append]
      omega

theorem Writes.single (h : c.Writes parts) : Single (parts.map Part.entry) := by
  intro o hMany
  rw [filter_entry, List.length_map]
  exact Nat.le_trans (h.length_filter_le o) (c.length_values_le hMany)

/-- The values that an option is given in the end are those of the command. -/
theorem Writes.values? (h : c.Writes parts) (o : Opt) :
    Given.values? (parts.map Part.entry) o = if c.values o = [] then none else some (c.values o) := by
  have hValues : ((parts.filter (·.option = o)).map Part.entry).flatMap Prod.snd = c.values o := by
    rw [← h.values, List.flatMap_map]
    rfl
  rw [Given.values?_of_filter (filter_entry o parts), hValues]
  refine ite_congr (propext ?_) (fun _ => rfl) fun _ => rfl
  constructor
  · intro hNone
    rw [← hValues, hNone, List.flatMap_nil]
  · intro hNone
    have hLength := h.length_filter_le o
    rw [hNone, List.length_nil, Nat.le_zero, List.length_eq_zero_iff] at hLength
    rw [hLength, List.map_nil]

/-- What is read of an option is the value that the command was written with. -/
theorem Writes.value? (h : c.Writes parts) (o : Opt) :
    Given.value? (parts.map Part.entry) o = (c.values o).head? := by
  rw [Given.value?, h.values?]
  cases c.values o <;> rfl

theorem head?_toList (value : Option String) : value.toList.head? = value := by
  cases value <;> rfl

theorem Writes.project {project : ProjectOptions} (h : c.Writes parts)
    (hRoot : c.values .repoRoot = project.repoRoot.toList)
    (hConfig : c.values .config = project.config.toList)
    (hOutput : c.values .output = project.output.toList) :
    Given.project (parts.map Part.entry) = project := by
  rw [Given.project, h.value?, h.value?, h.value?, hRoot, hConfig, hOutput, head?_toList, head?_toList,
    head?_toList]

/-- The command is built again from the values that its parts give. -/
theorem Writes.build (h : c.Writes parts) (hFiles : c.files? ≠ some []) :
    c.verb.build (parts.map Part.entry) = .ok c := by
  have hMany (files : Option (List String)) (hSome : files ≠ some []) :
      (if files.getD [] = [] then none else some (files.getD [])) = files := by
    cases files with
    | none => rfl
    | some files => exact if_neg fun hNone => hSome (congrArg some hNone)
  cases c with
  | version => rfl
  | run project transcript files =>
      have hProject : Given.project (parts.map Part.entry) = project := 
        h.project rfl rfl rfl
      have hTranscript : Given.value? (parts.map Part.entry) .transcript = transcript :=
        (h.value? _).trans (head?_toList _)
      have hGiven : Given.values? (parts.map Part.entry) .files = files :=
        (h.values? _).trans (hMany files hFiles)
      rw [verb, Verb.build, hProject, hTranscript, hGiven]
  | check project files =>
      have hProject : Given.project (parts.map Part.entry) = project := 
        h.project rfl rfl rfl
      have hGiven : Given.values? (parts.map Part.entry) .files = files :=
        (h.values? _).trans (hMany files hFiles)
      rw [verb, Verb.build, hProject, hGiven]
  | select project files =>
      have hProject : Given.project (parts.map Part.entry) = project := 
        h.project rfl rfl rfl
      have hGiven : Given.values? (parts.map Part.entry) .files = some files :=
        (h.values? _).trans (hMany (some files) hFiles)
      simp only [verb, Verb.build, hGiven, hProject]
  | parse ecosystem rootDir =>
      have hEcosystem : Given.value? (parts.map Part.entry) .ecosystem = some ecosystem := h.value? _
      have hRootDir : Given.value? (parts.map Part.entry) .rootDir = some rootDir := h.value? _
      simp only [verb, Verb.build, hEcosystem, hRootDir, Option.getD_some]

/-- Every command is written by its values with their options attached. -/
theorem writes_attachedParts (c : Command) : c.Writes c.attachedParts := by
  constructor
  · intro p hp
    obtain ⟨o, -, hp⟩ := List.mem_flatMap.mp hp
    obtain ⟨value, -, rfl⟩ := List.mem_map.mp hp
    exact .attached o value
  · intro o
    have hOwn (p : Opt) : (((c.values p).map (Part.attached p)).filter (·.option = o)).flatMap Part.values =
        if p = o then c.values p else [] := by
      by_cases hSame : p = o <;> simp [List.filter_map, Function.comp_def, Part.option, hSame,
        List.flatMap_map, Part.values]
    cases c <;> cases o <;>
      simp [attachedParts, verb, Verb.options, hOwn, List.filter_append] <;> rfl

/-- A command is read back from every command line that writes it: with its options in any order, each
with its value attached, whatever text that is, and with files that have no dash in front put together
in any way behind one option or several. -/
theorem parseArguments_written (c : Command) (hFiles : c.files? ≠ some []) :
    c.Writes c.attachedParts ∧
      ∀ parts, c.Writes parts → parseArguments (c.verb.word :: parts.flatMap Part.words) = .ok c := by
  refine ⟨c.writes_attachedParts, fun parts hWrites => ?_⟩
  have hRead : readOptions c.verb.options [] none (parts.flatMap Part.words) =
      .ok (parts.map Part.entry) := by
    have hClose : Given.close [] none = .ok [] := rfl
    exact readOptions_parts hWrites.legible hWrites.option_mem hClose hWrites.single
  simp only [parseArguments, Verb.ofWord?_word, hRead]
  exact hWrites.build hFiles

/-- A run with values that look like options, and with an empty file. -/
def dashing : Command :=
  .run ⟨some "", none, none⟩ (some "--config=x") (some ["-a", "b", ""])

/-- Its parts: the first file is attached since it has a dash in front. -/
def dashingParts : List Part :=
  [.attached .transcript "--config=x", .attached .files "-a", .attached .repoRoot "", .listed ["b", ""]]

theorem parseArguments_written_dashing : dashing.files? ≠ some [] ∧ dashing.Writes dashingParts ∧
    parseArguments ["run", "--transcript=--config=x", "--files=-a", "--repo-root=", "--files", "b", ""] =
      .ok dashing := by
  have hFiles : dashing.files? ≠ some [] := by decide
  have hWrites : dashing.Writes dashingParts := by
    constructor
    · simp only [dashingParts, List.forall_mem_cons]
      exact ⟨.attached _ _, .attached _ _, .attached _ _, .listed (by decide) (by decide),
        List.forall_mem_nil _⟩
    · intro o
      cases o <;> rfl
  have hWords : dashingParts.flatMap Part.words =
      ["--transcript=--config=x", "--files=-a", "--repo-root=", "--files", "b", ""] := by
    decide
  refine ⟨hFiles, hWrites, ?_⟩
  rw [← hWords]
  exact (parseArguments_written dashing hFiles).2 dashingParts hWrites

end Command

end LintRepair.Cli
