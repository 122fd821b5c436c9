import Folio.Config
import Folio.Proofs.BlockId

/-!
# Folio.Proofs.Config.Merging

What becomes of the settings of a configuration file and of the command line. For each setting the
command line goes before the file, and the file before the default.

* `Config.ReadsFile`: the file that a run takes its settings from, with all references replaced.
* `Config.load_of_readsFile`: loading in terms of that file.
* `ConfigFile.chosen`: the settings that count.
* `load_goes_by_chosen`: loading succeeds just if the chosen settings are acceptable and the file
  does not give an empty output directory, and it gives the chosen settings.
* `overridden_empty_dir_refused`: an empty output directory in the file is refused even if the
  command line gives another one.
-/

namespace Folio

/-! ## References to the environment -/

namespace Expansion

theorem substitute_congr {lookup lookup' : String → Option String} {ps : List Piece}
    (h : ∀ name default, .reference name default ∈ ps →
      lookup (String.ofList name) = lookup' (String.ofList name)) :
    substitute lookup ps = substitute lookup' ps := by
  induction ps with
  | nil => rfl
  | cons piece rest ih =>
    have hrest := ih fun name default hmem => h name default (List.mem_cons_of_mem piece hmem)
    have hpiece : piece.value lookup = piece.value lookup' := by
      cases piece with
      | literal s => rfl
      | reference name default => simp only [Piece.value, h name default List.mem_cons_self]
    rw [substitute, substitute, hpiece, hrest]

/-- A text is expanded by the values of the variables that it refers to. -/
theorem expand_congr {lookup lookup' : String → Option String} {s : String}
    (h : ∀ name ∈ variableNames s, lookup name = lookup' name) :
    expand lookup s = expand lookup' s := by
  have hparts : substitute lookup (parse s) = substitute lookup' (parse s) := by
    refine substitute_congr fun name default hmem => h _ ?_
    exact List.mem_filterMap.mpr ⟨.reference name default, hmem, rfl⟩
  rw [expand, expand, hparts]

end Expansion

namespace ConfigFile

theorem expandField_congr {lookup lookup' : String → Option String} (field : String)
    {value : Option String}
    (h : ∀ s ∈ value.toList, ∀ name ∈ Expansion.variableNames s, lookup name = lookup' name) :
    expandField lookup field value = expandField lookup' field value := by
  cases value with
  | none => rfl
  | some s => rw [expandField, expandField, Expansion.expand_congr (h s List.mem_cons_self)]

/-- A file is expanded by the values of the variables that it refers to. -/
theorem expand_congr {lookup lookup' : String → Option String} {f : ConfigFile}
    (h : ∀ name ∈ f.variableNames, lookup name = lookup' name) :
    f.expand lookup = f.expand lookup' := by
  have hfield {value : Option String} (hvalue : value.toList ⊆ f.expandable) :
      ∀ s ∈ value.toList, ∀ name ∈ Expansion.variableNames s, lookup name = lookup' name :=
    fun s hs name hname => h name (List.mem_flatMap.mpr ⟨s, hvalue hs, hname⟩)
  have hrecords : f.records.toList ⊆ f.expandable := by simp [expandable]
  have hroot : f.rootId.toList ⊆ f.expandable := by simp [expandable]
  have hdir : f.outputDir.toList ⊆ f.expandable := by simp [expandable]
  rw [expand, expand, expandField_congr _ (hfield hrecords), expandField_congr _ (hfield hroot),
    expandField_congr _ (hfield hdir)]

end ConfigFile

/-! ## Loading -/

namespace Config

/-- The nearest configuration file at or above the working directory. -/
def nearest? (w : World) : Option String :=
  ((Path.ancestors w.cwd).map (Path.join · fileName)).find? (w.files.contains w.cwd)

/-- A run with the configuration path `given` takes its settings from the file at `path`, and these
are the settings `g` once references to the environment are replaced. -/
structure ReadsFile (w : World) (given : Option String) (path : String) (g : ConfigFile) :
    Prop where
  source : given.or (nearest? w) = some path
  settings : ∃ text f, w.files.read w.cwd path = .ok text ∧ ConfigFile.ofText? text = some f ∧
    f.expand (fun name => w.environment.lookup name) = .ok g

/-- The variables of some names that are set, with their values. -/
def bound (environment : List (String × String)) (names : List String) : List (String × String) :=
  names.filterMap fun name => (environment.lookup name).map (name, ·)

theorem bound_cons (environment : List (String × String)) (name : String) (rest : List String) :
    bound environment (name :: rest) =
      ((environment.lookup name).map (name, ·)).toList ++ bound environment rest := by
  rw [bound, List.filterMap_cons]
  cases environment.lookup name <;> rfl

theorem bindings_run (w : World) (names : List String) :
    (bindings names : StateM World (List (String × String))) w =
      (bound w.environment names, w) := by
  induction names with
  | nil => rfl
  | cons name rest ih =>
    rw [bindings, bound_cons]
    simp only [World.run_bind, World.run_pure, World.run_envVar?, ih]
    cases w.environment.lookup name <;> rfl

theorem lookup_bound (environment : List (String × String)) (names : List String) (name : String) :
    (bound environment names).lookup name =
      if name ∈ names then environment.lookup name else none := by
  induction names with
  | nil => rfl
  | cons first rest ih =>
    rw [bound_cons, List.lookup_append, ih]
    by_cases hname : name = first
    · subst hname
      cases environment.lookup name with
      | none => simp
      | some v => simp
    · cases environment.lookup first with
      | none => simp [hname]
      | some v => simp [hname, List.lookup_cons, beq_false_of_ne hname]

theorem firstExisting?_run (w : World) (paths : List String) :
    (firstExisting? paths : StateM World (Option String)) w =
      (paths.find? (w.files.contains w.cwd), w) := by
  induction paths with
  | nil => rfl
  | cons path rest ih =>
    rw [firstExisting?, World.run_bind, World.run_pathExists]
    by_cases hpath : w.files.contains w.cwd path = true
    · rw [if_pos hpath, List.find?_cons_of_pos hpath, World.run_pure]
    · rw [if_neg hpath, List.find?_cons_of_neg hpath, ih]

variable {w : World} {given : Option String} {path : String} {g : ConfigFile}

theorem contains_of_read {text : String} (h : w.files.read w.cwd path = .ok text) :
    w.files.contains w.cwd path = true := by
  unfold FileTree.read at h
  unfold FileTree.contains
  cases hfind : w.files.find w.cwd path with
  | ok entry => rfl
  | error e =>
    rw [hfind] at h
    cases h

theorem loadFile_of_readsFile (h : ReadsFile w given path g) :
    (loadFile path : StateM World (Except ConfigError Config)) w = (.ok (resolve path g), w) := by
  obtain ⟨text, f, hread, hparse, hexpand⟩ := h.settings
  have hnames :
      f.expand (fun name => (bound w.environment f.variableNames).lookup name) = .ok g := by
    rw [← hexpand]
    refine ConfigFile.expand_congr fun name hname => ?_
    rw [lookup_bound, if_pos hname]
  rw [loadFile]
  simp only [World.run_bind, World.run_readFile, hread, hparse, Option.map_some, Option.getD_some,
    World.run_pure, bindings_run, ofFile, hnames]

/-- A run that takes its settings from a file checks what is left of them when the command line is
put in front, and changes nothing. -/
theorem load_of_readsFile (h : ReadsFile w given path g) (o : Overrides) :
    (load given o : StateM World (Except ConfigError Config)) w =
      (check ((resolve path g).override o), w) := by
  have hbase : (loadBase given : StateM World (Except ConfigError Config)) w =
      (.ok (resolve path g), w) := by
    have hfile := loadFile_of_readsFile h
    obtain ⟨text, f, hread, -⟩ := h.settings
    cases given with
    | some q =>
      obtain rfl := Option.some.inj h.source
      simp only [loadBase, World.run_bind, World.run_pathExists, contains_of_read hread, if_true,
        hfile]
    | none =>
      have hnearest : nearest? w = some path := h.source
      rw [nearest?] at hnearest
      simp only [loadBase, World.run_bind, World.run_cwd, firstExisting?_run, hnearest, hfile]
  rw [load]
  simp only [World.run_bind, hbase, World.run_pure]

/-! ## Block ids -/

/-- Thirty-two hexadecimal digits, in one piece or in groups joined by dashes. -/
def IsBlockId (id : String) : Prop :=
  ∃ digits : List Char, digits.length = 32 ∧ (∀ c ∈ digits, isHex c = true) ∧
    (id.toList = digits ∨ id.toList = BlockId.group digits)

theorem isDashedHex_append (position : Nat) (as bs : List Char) :
    isDashedHex position (as ++ bs) =
      (isDashedHex position as && isDashedHex (position + as.length) bs) := by
  induction as generalizing position with
  | nil => simp [isDashedHex]
  | cons c rest ih =>
    simp only [List.cons_append, isDashedHex, ih, Bool.and_assoc, List.length_cons,
      Nat.add_assoc, Nat.add_comm 1]

/-- Between the places of dashes there are digits. -/
theorem isDashedHex_eq_all {position : Nat} {cs : List Char}
    (h : ∀ d ∈ [8, 13, 18, 23], d < position ∨ position + cs.length ≤ d) :
    isDashedHex position cs = cs.all isHex := by
  induction cs generalizing position with
  | nil => rfl
  | cons c rest ih =>
    have hrest : isDashedHex (position + 1) rest = rest.all isHex := ih fun d hd => by
      have := h d hd
      rw [List.length_cons] at this
      omega
    have hplace : ¬ [8, 13, 18, 23].contains position = true := by
      intro hmem
      have := h position (by simpa using hmem)
      rw [List.length_cons] at this
      omega
    rw [isDashedHex, if_neg hplace, hrest, List.all_cons]

theorem isDashedHex_dash {position : Nat} (h : position ∈ [8, 13, 18, 23]) (c : Char)
    (rest : List Char) : isDashedHex position (c :: rest) =
      (c == '-' && isDashedHex (position + 1) rest) := by
  rw [isDashedHex, if_pos (by simpa using h)]

/-- A dashed text is five groups of digits with a dash in between. -/
theorem isDashedHex_groups {as bs cs ds es : List Char} {w x y z : Char} (ha : as.length = 8)
    (hb : bs.length = 4) (hc : cs.length = 4) (hd : ds.length = 4) (he : es.length = 12) :
    isDashedHex 0 (as ++ w :: (bs ++ x :: (cs ++ y :: (ds ++ z :: es)))) = true ↔
      (∀ c ∈ as ++ bs ++ cs ++ ds ++ es, isHex c = true) ∧
        w = '-' ∧ x = '-' ∧ y = '-' ∧ z = '-' := by
  rw [isDashedHex_append, isDashedHex_dash (by simp [ha]), isDashedHex_append,
    isDashedHex_dash (by simp [ha, hb]), isDashedHex_append,
    isDashedHex_dash (by simp [ha, hb, hc]), isDashedHex_append,
    isDashedHex_dash (by simp [ha, hb, hc, hd])]
  rw [isDashedHex_eq_all (by simp [ha]), isDashedHex_eq_all (by simp [ha, hb]),
    isDashedHex_eq_all (by simp [ha, hb, hc]), isDashedHex_eq_all (by simp [ha, hb, hc, hd]),
    isDashedHex_eq_all (by simp [ha, hb, hc, hd, he])]
  simp only [Bool.and_eq_true, List.all_eq_true, beq_iff_eq, List.mem_append, or_imp, forall_and]
  constructor
  · rintro ⟨ha, hw, hb, hx, hc, hy, hd, hz, he⟩
    exact ⟨⟨⟨⟨⟨ha, hb⟩, hc⟩, hd⟩, he⟩, hw, hx, hy, hz⟩
  · rintro ⟨⟨⟨⟨⟨ha, hb⟩, hc⟩, hd⟩, he⟩, hw, hx, hy, hz⟩
    exact ⟨ha, hw, hb, hx, hc, hy, hd, hz, he⟩

theorem exists_cons_of_length {n k : Nat} {cs : List Char} (h : cs.length = n + 1 + k) :
    ∃ as c bs, cs = as ++ c :: bs ∧ as.length = n ∧ bs.length = k := by
  have hlength : cs.length = n + (k + 1) := by omega
  obtain ⟨as, rest, rfl, has, hrest⟩ := BlockId.exists_append_of_length hlength
  cases rest with
  | nil => cases hrest
  | cons c bs => exact ⟨as, c, bs, rfl, has, Nat.succ.inj hrest⟩

theorem isBlockId_iff (id : String) : isBlockId id = true ↔ IsBlockId id := by
  simp only [isBlockId, Bool.or_eq_true, Bool.and_eq_true, beq_iff_eq, List.all_eq_true]
  constructor
  · rintro (⟨hlength, hdigits⟩ | ⟨hlength, hdashed⟩)
    · exact ⟨id.toList, hlength, hdigits, .inl rfl⟩
    · obtain ⟨as, w, _, hid, ha, h⟩ := exists_cons_of_length (n := 8) (k := 27) hlength
      obtain ⟨bs, x, _, rfl, hb, h⟩ := exists_cons_of_length (n := 4) (k := 22) h
      obtain ⟨cs, y, _, rfl, hc, h⟩ := exists_cons_of_length (n := 4) (k := 17) h
      obtain ⟨ds, z, es, rfl, hd, he⟩ := exists_cons_of_length (n := 4) (k := 12) h
      rw [hid] at hdashed
      obtain ⟨hdigits, rfl, rfl, rfl, rfl⟩ := (isDashedHex_groups ha hb hc hd he).mp hdashed
      refine ⟨as ++ bs ++ cs ++ ds ++ es, by simp [ha, hb, hc, hd, he], hdigits, .inr ?_⟩
      rw [hid, BlockId.group_append ha hb hc hd]
  · rintro ⟨digits, hlength, hdigits, hid | hid⟩
    · exact .inl ⟨hid ▸ hlength, hid ▸ hdigits⟩
    · obtain ⟨as, bs, cs, ds, es, rfl, ha, hb, hc, hd, he⟩ := BlockId.exists_groups hlength
      rw [BlockId.group_append ha hb hc hd] at hid
      rw [hid]
      refine .inr ⟨by simp [ha, hb, hc, hd, he], ?_⟩
      exact (isDashedHex_groups ha hb hc hd he).mpr ⟨hdigits, rfl, rfl, rfl, rfl⟩

end Config

/-! ## Chosen settings -/

/-- The settings that a file and the command line can both give. -/
structure Settings where
  records : Option String
  rootId : Option String
  outputDir : String
  standalone : Bool
  missingChildren : MissingChildPolicy
deriving DecidableEq, Repr

/-- The settings of a configuration. -/
def Config.settings (c : Config) : Settings :=
  ⟨c.records, c.rootId, c.outputDir, c.standalone, c.missingChildren⟩

namespace ConfigFile

/-- The output directory that counts, as it was written. -/
def chosenDir (g : ConfigFile) (o : Overrides) : String :=
  (o.outputDir.or g.outputDir).getD Config.defaultDir

/-- The settings that count: those of the command line as they are given, then those of the file,
then the defaults, with the paths of the file and the default one seen from the directory `base`. -/
def chosen (base : String) (g : ConfigFile) (o : Overrides) : Settings where
  records := o.records.or (g.records.map (Path.join base))
  rootId := o.rootId.or g.rootId
  outputDir := o.outputDir.getD (Path.join base (g.outputDir.getD Config.defaultDir))
  standalone := (o.standalone.or g.standalone).getD false
  missingChildren := o.missingChildren.getD g.missingChildren

/-- The output directory is not empty, and the root is a block id if there is one. -/
def Acceptable (g : ConfigFile) (o : Overrides) : Prop :=
  g.chosenDir o ≠ "" ∧ ∀ id ∈ o.rootId.or g.rootId, Config.IsBlockId id

/-- What the command line leaves to the file. -/
def leftBy (o : Overrides) (g : ConfigFile) : ConfigFile where
  records := if o.records.isSome then none else g.records
  rootId := if o.rootId.isSome then none else g.rootId
  outputDir := if o.outputDir.isSome then none else g.outputDir
  standalone := if o.standalone.isSome then none else g.standalone
  missingChildren := if o.missingChildren.isSome then .skip else g.missingChildren

theorem chosenDir_leftBy (o : Overrides) (g : ConfigFile) :
    (g.leftBy o).chosenDir o = g.chosenDir o := by
  unfold chosenDir leftBy
  cases o.outputDir <;> rfl

theorem chosen_leftBy (base : String) (o : Overrides) (g : ConfigFile) :
    (g.leftBy o).chosen base o = g.chosen base o := by
  obtain ⟨records, rootId, outputDir, standalone, missingChildren⟩ := o
  cases records <;> cases rootId <;> cases outputDir <;> cases standalone <;>
    cases missingChildren <;> rfl

end ConfigFile

namespace Config

open ConfigFile

variable {w : World} {given : Option String} {path : String} {g : ConfigFile}

/-- The directory that the paths of a file are seen from. -/
def baseOf (path : String) : String := (Path.parent? path).getD "."

/-- The verdict on settings, of which the output directory was written as `dir`. -/
def judge (dir : String) (s : Settings) : Except ConfigError Settings :=
  if dir = "" then .error .emptyOutputDir
  else
    match s.rootId with
    | some id => if isBlockId id then .ok s else .error (.invalidRootId id)
    | none => .ok s

theorem check_of_givenOutputDir {c : Config} (h : c.givenOutputDir = some "") :
    check c = .error .emptyOutputDir := by
  simp [check, h]

theorem check_map_settings {c : Config} {dir : String} (hgiven : c.givenOutputDir ≠ some "")
    (hdir : c.outputDir = "" ↔ dir = "") : (check c).map settings = judge dir c.settings := by
  have hempty : (c.givenOutputDir == some "" || c.outputDir.isEmpty) = decide (dir = "") := by
    rw [beq_false_of_ne hgiven, Bool.false_or, Bool.eq_iff_iff, String.isEmpty_iff, hdir,
      decide_eq_true_iff]
  have hroot : c.settings.rootId = c.rootId := rfl
  rw [check, judge, hempty, hroot]
  by_cases hdir : dir = ""
  · simp [hdir, Except.map]
  · rw [decide_eq_false hdir, if_neg Bool.false_ne_true, if_neg hdir]
    cases c.rootId with
    | none => rfl
    | some id => cases hid : isBlockId id <;> simp [hid, Except.map]

/-- The outcome of the check is the verdict on the chosen settings. -/
theorem check_override (path : String) {g : ConfigFile} (o : Overrides)
    (hdir : g.outputDir ≠ some "") :
    (check ((resolve path g).override o)).map settings =
      judge (g.chosenDir o) (g.chosen (baseOf path) o) := by
  have hsettings : ((resolve path g).override o).settings = g.chosen (baseOf path) o := by
    simp only [settings, override, resolve, chosen, baseOf, Settings.mk.injEq, true_and, and_true]
    cases o.standalone <;> rfl
  have hempty : ((resolve path g).override o).outputDir = "" ↔ g.chosenDir o = "" := by
    have hfile : g.outputDir.getD defaultDir ≠ "" := by
      cases hgiven : g.outputDir with
      | none => decide
      | some dir =>
        rintro rfl
        exact hdir hgiven
    cases houtput : o.outputDir with
    | none => simp [override, resolve, chosenDir, houtput, hfile, Path.join_ne_empty _ hfile]
    | some dir => simp [override, chosenDir, houtput]
  rw [← hsettings]
  exact check_map_settings hdir hempty

theorem judge_eq_ok_iff {dir : String} {s t : Settings} :
    judge dir s = .ok t ↔ s = t ∧ dir ≠ "" ∧ ∀ id ∈ s.rootId, IsBlockId id := by
  unfold judge
  by_cases hdir : dir = ""
  · simp [hdir]
  · rw [if_neg hdir]
    cases hroot : s.rootId with
    | none => simp [hdir]
    | some id =>
      simp only [Option.mem_some_iff, forall_eq', ← isBlockId_iff]
      cases hid : isBlockId id <;> simp [hdir]

theorem exists_ok_iff_map {ε α β : Type} {x : Except ε α} (f : α → β) :
    (∃ a, x = .ok a) ↔ ∃ b, x.map f = .ok b := by
  cases x <;> simp [Except.map]

end Config

/-- Loading succeeds just if the output directory and the root that are chosen between command line,
file and defaults are acceptable, and the file does not give an empty output directory. It gives
the chosen settings. As long as the directory of the file is not empty, what the command line
overrides has no influence on the outcome. -/
theorem load_goes_by_chosen {w : World} {given : Option String} {path : String}
    {g : ConfigFile} (h : Config.ReadsFile w given path g) (o : Overrides) :
    ((∃ c, (Config.load (m := StateM World) given o w).1 = .ok c) ↔
        g.outputDir ≠ some "" ∧ g.Acceptable o) ∧
      (∀ c, (Config.load (m := StateM World) given o w).1 = .ok c →
        c.settings = g.chosen (Config.baseOf path) o) ∧
      ∀ {w' : World} {g' : ConfigFile}, Config.ReadsFile w' given path g' →
        g.outputDir ≠ some "" → g'.outputDir ≠ some "" → g'.leftBy o = g.leftBy o →
        (Config.load (m := StateM World) given o w').1.map Config.settings =
          (Config.load (m := StateM World) given o w).1.map Config.settings := by
  rw [Config.load_of_readsFile h o]
  by_cases hdir : g.outputDir = some ""
  · have hrefused : Config.check ((Config.resolve path g).override o) = .error .emptyOutputDir :=
      Config.check_of_givenOutputDir hdir
    refine ⟨?_, fun c hc => ?_, fun _ hne => absurd hdir hne⟩
    · simp [hrefused, hdir]
    · cases hrefused.symm.trans hc
  · have hcheck := Config.check_override path o hdir
    refine ⟨?_, fun c hc => ?_, fun {w' g'} h' _ hdir' hleft => ?_⟩
    · rw [Config.exists_ok_iff_map Config.settings, hcheck]
      simp only [Config.judge_eq_ok_iff, exists_eq_left', ConfigFile.Acceptable]
      exact ⟨fun haccepted => ⟨hdir, haccepted⟩, And.right⟩
    · have haccepted : Config.check ((Config.resolve path g).override o) = .ok c := hc
      rw [haccepted] at hcheck
      exact (Config.judge_eq_ok_iff.mp hcheck.symm).1.symm
    · rw [Config.load_of_readsFile h' o, Config.check_override path o hdir', hcheck,
        ← ConfigFile.chosenDir_leftBy, hleft, ConfigFile.chosenDir_leftBy,
        ← ConfigFile.chosen_leftBy, hleft, ConfigFile.chosen_leftBy]

/-- A world with a configuration file of a text, and nothing else. -/
def World.configured (text : String) : World where
  files := ⟨[(["nast.toml"], .file text)]⟩

deriving instance DecidableEq for ConfigFile

theorem Config.readsFile_configured {text : String} {f g : ConfigFile}
    (hparse : ConfigFile.ofText? text = some f)
    (hexpand : (f.expand fun _ => none).toOption = some g) :
    Config.ReadsFile (.configured text) (some "nast.toml") "nast.toml" g := by
  refine ⟨rfl, text, f, ?_, hparse, ?_⟩
  · have hparts : Path.parts (Path.join "/" "nast.toml").toList = ["", "nast.toml"] := by
      decide +kernel
    unfold FileTree.read FileTree.find FileTree.locate
    simp [World.configured, hparts, FileTree.walk, FileTree.at?]
  · change f.expand (fun _ => none) = .ok g
    cases hexpanded : f.expand fun _ => none with
    | error e =>
      rw [hexpanded] at hexpand
      cases hexpand
    | ok g' =>
      rw [hexpanded] at hexpand
      exact congrArg Except.ok (Option.some.inj hexpand)

/-- The outcome of loading where the configuration file has a text. -/
def Config.loadText (text : String) (o : Overrides) : Except ConfigError Config :=
  (load (m := StateM World) (some "nast.toml") o (.configured text)).1

/-- A root of the command line goes before two roots of files that are no block ids. -/
theorem load_ignores_overridden_root :
    (∃ c, Config.loadText "[input]\nroot_id = \"home\""
      { rootId := some "0eeee000ccccbbbbaaaa123450000000" } = .ok c) ∧
    (Config.loadText "[input]\nroot_id = \"top\""
      { rootId := some "0eeee000ccccbbbbaaaa123450000000" }).map Config.settings =
    (Config.loadText "[input]\nroot_id = \"home\""
      { rootId := some "0eeee000ccccbbbbaaaa123450000000" }).map Config.settings := by
  have hhome : Config.ReadsFile (.configured "[input]\nroot_id = \"home\"") (some "nast.toml")
      "nast.toml" { rootId := some "home" } :=
    Config.readsFile_configured (f := { rootId := some "home" }) (by decide +kernel)
      (by decide +kernel)
  have htop : Config.ReadsFile (.configured "[input]\nroot_id = \"top\"") (some "nast.toml")
      "nast.toml" { rootId := some "top" } :=
    Config.readsFile_configured (f := { rootId := some "top" }) (by decide +kernel)
      (by decide +kernel)
  obtain ⟨hsucceeds, -, hoverridden⟩ := load_goes_by_chosen hhome
    { rootId := some "0eeee000ccccbbbbaaaa123450000000" }
  refine ⟨hsucceeds.mpr ⟨?_, ?_, ?_⟩, hoverridden htop ?_ ?_ rfl⟩
  · decide
  · decide
  · have hid : Config.IsBlockId "0eeee000ccccbbbbaaaa123450000000" := by
      rw [← Config.isBlockId_iff]
      decide +kernel
    simpa using hid
  · decide
  · decide

/-- An empty output directory in the file is refused, although the command line gives another one
and the settings that count are acceptable. -/
theorem overridden_empty_dir_refused :
    ¬ ∀ (w : World) (given : Option String) (path : String) (g : ConfigFile) (o : Overrides),
      Config.ReadsFile w given path g →
        ((∃ c, (Config.load (m := StateM World) given o w).1 = .ok c) ↔ g.Acceptable o) := by
  intro h
  have hreads : Config.ReadsFile (.configured "[output]\ndir = \"\"") (some "nast.toml")
      "nast.toml" { outputDir := some "" } :=
    Config.readsFile_configured (f := { outputDir := some "" }) (by decide +kernel)
      (by decide +kernel)
  have hacceptable :
      ConfigFile.Acceptable { outputDir := some "" } { outputDir := some "public" } := by
    refine ⟨?_, ?_⟩
    · decide
    · simp
  obtain ⟨c, hc⟩ := (h _ _ _ _ _ hreads).mpr hacceptable
  rw [Config.load_of_readsFile hreads, Config.check_of_givenOutputDir rfl] at hc
  cases hc

end Folio
