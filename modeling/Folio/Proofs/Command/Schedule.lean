import Folio.Command.Run

/-!
# Folio.Proofs.Command.Schedule

Rendering files in parallel. A file is read and made into a page in one step, and the page is
written in another one. Between the steps of a file there may be steps of the others, so a run may
go in many ways. The program itself takes one file after another, which is one of them.

* `Run.Step`: one step of one file.
* `Run.Processed`: a way to process files.
* `Run.Processed.invariant`: what every step preserves holds at the end.
* `Run.renderAll`, `Run.run_render`: what the program does to render files.
* `Run.Ends`: how a run may end, and `Run.renderAll_ends`: the program ends like this.
-/

namespace Folio
namespace Run

/-- How far a file has come. -/
inductive Stage where
  | waiting
  | made (page : Page)
  | done (outcome : Except RunError Rendering)

/-- The path that the page of a dump is written to. -/
def target (c : Config) (path : String) : String :=
  Path.join c.outputDir (pageName path)

/-- One step of the file at a path. -/
inductive Step (c : Config) (path : String) : Stage → World → Stage → World → Prop where
  | unreadable {w : World} {e : FileError} (hread : w.files.read w.cwd path = .error e) :
      Step c path .waiting w (.done (.error (.file e))) w
  | refused {w : World} {text : String} {e : RunError} (hread : w.files.read w.cwd path = .ok text)
      (hpage : pageOf c text = .error e) : Step c path .waiting w (.done (.error e)) w
  | made {w : World} {text : String} {page : Page} (hread : w.files.read w.cwd path = .ok text)
      (hpage : pageOf c text = .ok page) : Step c path .waiting w (.made page) w
  | unwritable {w : World} {page : Page} {e : FileError}
      (hwrite : w.files.write w.cwd (target c path) page.html = .error e) :
      Step c path (.made page) w (.done (.error (.file e))) w
  | written {w : World} {page : Page} {t : FileTree}
      (hwrite : w.files.write w.cwd (target c path) page.html = .ok t) :
      Step c path (.made page) w (.done (.ok ⟨target c path, page.warnings⟩)) { w with files := t }

abbrev Job := String × Stage

abbrev Outcomes := List (String × Except RunError Rendering)

def finished (outcomes : Outcomes) : List Job :=
  outcomes.map fun (path, outcome) => (path, .done outcome)

def unread (files : List String) : List Job :=
  files.map fun path => (path, .waiting)

theorem mem_finished_iff {outcomes : Outcomes} {path : String} {stage : Stage} :
    (path, stage) ∈ finished outcomes ↔
      ∃ outcome, (path, outcome) ∈ outcomes ∧ stage = .done outcome := by
  simp only [finished, List.mem_map, Prod.mk.injEq, Prod.exists]
  constructor
  · rintro ⟨_, outcome, hmem, rfl, rfl⟩
    exact ⟨outcome, hmem, rfl⟩
  · rintro ⟨outcome, hmem, rfl⟩
    exact ⟨path, outcome, hmem, rfl, rfl⟩

theorem mem_unread_iff {files : List String} {path : String} {stage : Stage} :
    (path, stage) ∈ unread files ↔ path ∈ files ∧ stage = .waiting := by
  simp only [unread, List.mem_map, Prod.mk.injEq]
  constructor
  · rintro ⟨_, hmem, rfl, rfl⟩
    exact ⟨hmem, rfl⟩
  · rintro ⟨hmem, rfl⟩
    exact ⟨path, hmem, rfl, rfl⟩

/-- A way to process files: as long as some are not done, any of them takes a step. -/
inductive Processed (c : Config) : List Job → World → Outcomes → World → Prop where
  | done (outcomes : Outcomes) (w : World) : Processed c (finished outcomes) w outcomes w
  | step {before after : List Job} {path : String} {stage stage' : Stage} {w w' w'' : World}
      {outcomes : Outcomes} (hstep : Step c path stage w stage' w')
      (hrest : Processed c (before ++ (path, stage') :: after) w' outcomes w'') :
      Processed c (before ++ (path, stage) :: after) w outcomes w''

variable {c : Config} {jobs : List Job} {w w' : World} {outcomes : Outcomes}

/-- What every step of a file preserves still holds when all files are processed. -/
theorem Processed.invariant {I : List Job → World → Prop}
    (hstep : ∀ {before after : List Job} {path : String} {stage stage' : Stage} {w w' : World},
      Step c path stage w stage' w' → I (before ++ (path, stage) :: after) w →
        I (before ++ (path, stage') :: after) w')
    (h : Processed c jobs w outcomes w') (hI : I jobs w) : I (finished outcomes) w' := by
  induction h with
  | done outcomes w => exact hI
  | step hone hrest ih => exact ih (hstep hone hI)

/-! ## One file after another -/

section Sequential

variable {before after : List Job} {path : String}

theorem exists_step_made (c : Config) (path : String) (page : Page) (w : World) :
    ∃ outcome w', Step c path (.made page) w (.done outcome) w' := by
  cases hwrite : w.files.write w.cwd (target c path) page.html with
  | error e => exact ⟨_, _, .unwritable hwrite⟩
  | ok t => exact ⟨_, _, .written hwrite⟩

/-- A file is processed by its steps alone. -/
theorem processed_of_renderFile
    (h : Processed c (before ++ (path, .done (renderFile (m := StateM World) c path w).1) :: after)
      (renderFile (m := StateM World) c path w).2 outcomes w') :
    Processed c (before ++ (path, .waiting) :: after) w outcomes w' := by
  rw [renderFile] at h
  -- one step for each thing that the program can come to do with the file
  cases hread : w.files.read w.cwd path with
  | error e =>
    simp only [World.run_bind, World.run_readFile, hread, World.run_pure] at h
    exact .step (.unreadable hread) h
  | ok text =>
    cases hpage : pageOf c text with
    | error e =>
      simp only [World.run_bind, World.run_readFile, hread, hpage, World.run_pure] at h
      exact .step (.refused hread hpage) h
    | ok page =>
      refine .step (.made hread hpage) ?_
      simp only [World.run_bind, World.run_readFile, hread, hpage, World.run_writeFile] at h
      cases hwrite : w.files.write w.cwd (target c path) page.html with
      | error e =>
        rw [target] at hwrite
        simp only [hwrite, World.run_pure] at h
        exact .step (.unwritable hwrite) h
      | ok t =>
        rw [target] at hwrite
        simp only [hwrite, World.run_pure] at h
        exact .step (.written hwrite) h

theorem finished_append (outcomes others : Outcomes) :
    finished (outcomes ++ others) = finished outcomes ++ finished others :=
  List.map_append

theorem exists_processed_behind (c : Config) (done : Outcomes) (jobs : List Job) (w : World) :
    ∃ outcomes w', Processed c (finished done ++ jobs) w outcomes w' := by
  induction jobs generalizing done w with
  | nil => exact ⟨done, w, by rw [List.append_nil]; exact .done done w⟩
  | cons job rest ih =>
    have hdone (path : String) (outcome : Except RunError Rendering) (w : World) :
        ∃ outcomes w',
          Processed c (finished done ++ (path, .done outcome) :: rest) w outcomes w' := by
      have := ih (done ++ [(path, outcome)]) w
      rwa [finished_append, List.append_assoc] at this
    obtain ⟨path, stage⟩ := job
    cases stage with
    | done outcome => exact hdone path outcome w
    | made page =>
      obtain ⟨outcome, w', hstep⟩ := exists_step_made c path page w
      obtain ⟨outcomes, w'', hrest⟩ := hdone path outcome w'
      exact ⟨outcomes, w'', .step hstep hrest⟩
    | waiting =>
      obtain ⟨outcomes, w', hrest⟩ := hdone path _ _
      exact ⟨outcomes, w', processed_of_renderFile hrest⟩

/-- Whatever was done before, the remaining steps can be taken. -/
theorem exists_processed (c : Config) (jobs : List Job) (w : World) :
    ∃ outcomes w', Processed c jobs w outcomes w' :=
  exists_processed_behind c [] jobs w

/-- The program processes files from first to last. -/
theorem renderFiles_processed (c : Config) (done : Outcomes) (files : List String) (w : World) :
    Processed c (finished done ++ unread files) w
      (done ++ (renderFiles (m := StateM World) c files w).1)
      (renderFiles (m := StateM World) c files w).2 := by
  induction files generalizing done w with
  | nil =>
    simp only [unread, List.map_nil, List.append_nil, renderFiles, World.run_pure]
    exact .done done w
  | cons path rest ih =>
    simp only [renderFiles, World.run_bind, World.run_pure]
    refine processed_of_renderFile ?_
    have := ih (done ++ [(path, (renderFile (m := StateM World) c path w).1)])
      (renderFile (m := StateM World) c path w).2
    rwa [finished_append, List.append_assoc, List.append_assoc] at this

end Sequential

/-! ## Ends of runs -/

section Commands

variable {m : Type → Type} [Monad m] [Host m]

/-- What is left to do when all files are processed: reports, and the exit code. -/
def conclude (outcomes : Outcomes) : m Nat := do
  let failed ← reportOutcomes outcomes
  finish (if failed = 0 then .ok () else .error (.filesFailed failed outcomes.length))

/-- The command to render files with a configuration, up to the exit code. -/
def renderAll (c : Config) (files : List String) : m Nat := do
  finish (← renderWith c files)

end Commands

/-- The program does this if it is asked to render files and its configuration is valid. -/
theorem run_render {args : List String} {r : RenderRequest} {c : Config} {w : World}
    (hargs : Invocation.ofArguments? args = some (.render r)) (hfiles : r.files ≠ [])
    (hload : (Config.load r.config (renderOverrides r) : StateM World _) w = (.ok c, w)) :
    (run args : StateM World Nat) w = (renderAll c r.files : StateM World Nat) w := by
  have hrender : (render r : StateM World _) w = (renderWith c r.files : StateM World _) w := by
    cases hgiven : r.files with
    | nil => exact absurd hgiven hfiles
    | cons first rest =>
      simp only [render, World.run_bind, hload, hgiven, List.isEmpty_cons, Bool.false_eq_true,
        if_false]
  simp only [run, hargs, renderAll, World.run_bind, hrender]

theorem finish_run (w : World) (outcome : Except RunError Unit) :
    ((finish outcome : StateM World Nat) w).1 = 0 ↔ outcome = .ok () := by
  cases outcome <;> simp [finish]

theorem files_finish (w : World) (outcome : Except RunError Unit) :
    ((finish outcome : StateM World Nat) w).2.files = w.files := by
  cases outcome <;> simp [finish]

theorem files_reportWarnings (path : String) (warnings : List Warning) (w : World) :
    ((reportWarnings path warnings : StateM World Unit) w).2.files = w.files := by
  induction warnings generalizing w with
  | nil => rfl
  | cons warning rest ih =>
    rw [reportWarnings, World.run_bind, ih]
    rfl

/-- The reports change no files, and no file counts as failed just if all are rendered. -/
theorem reportOutcomes_run (outcomes : Outcomes) (w : World) :
    (((reportOutcomes outcomes : StateM World Nat) w).1 = 0 ↔
        ∀ path outcome, (path, outcome) ∈ outcomes → ∃ r, outcome = .ok r) ∧
      ((reportOutcomes outcomes : StateM World Nat) w).2.files = w.files := by
  induction outcomes generalizing w with
  | nil => simp [reportOutcomes]
  | cons first rest ih =>
    obtain ⟨path, outcome⟩ := first
    cases outcome with
    | error e =>
      simp only [reportOutcomes, World.run_bind, World.run_pure, World.run_report, ih]
      refine ⟨⟨fun h => absurd h (Nat.succ_ne_zero _), fun h => ?_⟩, trivial⟩
      obtain ⟨r, hr⟩ := h path _ List.mem_cons_self
      cases hr
    | ok r =>
      simp only [reportOutcomes, World.run_bind, ih, World.run_report, files_reportWarnings]
      refine ⟨⟨fun h path outcome hmem => ?_, fun h path outcome hmem => ?_⟩, trivial⟩
      · rcases List.mem_cons.mp hmem with heq | hrest
        · cases heq
          exact ⟨r, rfl⟩
        · exact h path outcome hrest
      · exact h path outcome (List.mem_cons_of_mem _ hmem)

theorem conclude_run (outcomes : Outcomes) (w : World) :
    (((conclude outcomes : StateM World Nat) w).1 = 0 ↔
        ∀ path outcome, (path, outcome) ∈ outcomes → ∃ r, outcome = .ok r) ∧
      ((conclude outcomes : StateM World Nat) w).2.files = w.files := by
  obtain ⟨hfailed, hfiles⟩ := reportOutcomes_run outcomes w
  rw [conclude, World.run_bind, finish_run, files_finish, hfiles, ← hfailed]
  refine ⟨?_, rfl⟩
  split
  · rename_i hzero
    simp [hzero]
  · rename_i hsome
    simp [hsome]

/-- The world at the start of a run, when the output directory is there. -/
def opened (c : Config) (w : World) (t : FileTree) : World :=
  { w with files := t, reported := w.reported ++ s!"output {c.outputDir}" ++ "\n" }

/-- Files are processed in some way from a tree with the output directory on, the outcomes are
reported, and the run ends with an exit code. -/
def Ends (c : Config) (w : World) (t : FileTree) (files : List String) (outcomes : Outcomes)
    (code : Nat) (w' : World) : Prop :=
  ∃ processed, Processed c (unread files) (opened c w t) outcomes processed ∧
    (conclude outcomes : StateM World Nat) processed = (code, w')

/-- The program ends in one of the possible ways. -/
theorem renderAll_ends {t : FileTree} (hdir : w.files.createDirAll w.cwd c.outputDir = .ok t)
    (files : List String) :
    Ends c w t files (renderFiles (m := StateM World) c files (opened c w t)).1
      (renderAll (m := StateM World) c files w).1 (renderAll (m := StateM World) c files w).2 := by
  refine ⟨_, renderFiles_processed c [] files (opened c w t), ?_⟩
  simp only [renderAll, renderWith, World.run_bind, World.run_createDirAll, hdir, World.run_report,
    World.run_pure, conclude]
  rfl

end Run
end Folio
