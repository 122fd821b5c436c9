import Folio.Proofs.Command.Schedule
import Folio.Proofs.FileTree

/-!
# Folio.Proofs.Command.Progress

What holds at any time while the files of a run are processed. Directories stay as they are. A place
holds what it held at the start, or the page of a file that is done. A page starts with a character
that no dump starts with, so a file of which the place was overwritten fails when it is read, and
what is made into a page is always the text that the file had at the start.

* `Run.Renders`: a file is rendered if nothing gets in its way.
* `Run.Invariant`, `Run.Invariant.step`: what every step of every file preserves.
* `Run.Ends.invariant`: what is known at the end of a run.
-/

namespace Folio

/-! ## Pages are no dumps -/

/-- A text starts like markup. -/
def StartsAsMarkup (text : String) : Prop :=
  text.toList.head? = some '<'

theorem startsAsMarkup_append {s : String} (h : StartsAsMarkup s) (rest : String) :
    StartsAsMarkup (s ++ rest) := by
  unfold StartsAsMarkup at *
  rw [String.toList_append, List.head?_append, h, Option.some_or]

theorem startsAsMarkup_element (tag : String) (attributes : List Attribute) (content : Rendered) :
    StartsAsMarkup (Rendered.element tag attributes content).html := by
  have hopen : StartsAsMarkup "<" := rfl
  rw [Rendered.html_element, Markup.startTag]
  exact startsAsMarkup_append (startsAsMarkup_append (startsAsMarkup_append
    (startsAsMarkup_append (startsAsMarkup_append hopen _) _) _) _) _

theorem startsAsMarkup_document (title body : String) :
    StartsAsMarkup (Renderer.document title body) := by
  unfold Renderer.document
  refine startsAsMarkup_append (startsAsMarkup_append (startsAsMarkup_append
    (startsAsMarkup_append ?_ _) _) _) _
  exact rfl

theorem startsAsMarkup_render (r : Renderer) (n : Node) : StartsAsMarkup (r.render n).html := by
  have hbody : StartsAsMarkup (r.root n).html := by
    unfold Renderer.root
    split
    · exact startsAsMarkup_element _ _ _
    · rw [Renderer.nodes, Rendered.html_append]
      exact startsAsMarkup_append (startsAsMarkup_element _ _ _) _
  simp only [Renderer.render]
  split
  · exact startsAsMarkup_document _ _
  · exact hbody

/-- No token starts with the character that markup starts with. -/
theorem Json.ofText?_of_startsAsMarkup {text : String} (h : StartsAsMarkup text) :
    Json.ofText? text = none := by
  obtain ⟨rest, hrest⟩ := List.head?_eq_some_iff.mp h
  have hblank : ('<' :: rest).dropWhile Token.isBlank = '<' :: rest := rfl
  have hword : Token.scanWord? ('<' :: rest) Token.words = none := rfl
  have hscan : Token.scan? ('<' :: rest) = none := by
    have hnumber : Token.scanUnsigned? false ('<' :: rest) = none := rfl
    have hother : Token.scan? ('<' :: rest) =
        (Token.scanWord? ('<' :: rest) Token.words).orElse
          fun _ => Token.scanUnsigned? false ('<' :: rest) := rfl
    rw [hother, hword, hnumber]
    rfl
  have htokens : Token.ofChars? text.toList = none := by
    rw [Token.ofChars?, Token.collect?, hrest, hblank, if_neg (by simp)]
    split
    · rename_i heq
      rw [hscan] at heq
      cases heq
    · rfl
  rw [Json.ofText?, Written.ofText?, htokens]
  rfl

namespace Run

variable {c : Config}

theorem startsAsMarkup_of_pageOf {text : String} {page : Page} (h : pageOf c text = .ok page) :
    StartsAsMarkup page.html := by
  unfold pageOf at h
  cases htree : treeOf c text with
  | error e =>
    rw [htree] at h
    cases h
  | ok tree =>
    rw [htree] at h
    cases h
    exact startsAsMarkup_render _ _

/-- A page is never taken for a dump. -/
theorem pageOf_of_startsAsMarkup {text : String} (h : StartsAsMarkup text) :
    pageOf c text = .error (.dump .notJson) := by
  rw [pageOf, treeOf, RecordMap.ofText, Json.ofText?_of_startsAsMarkup h]

/-! ## Names of pages -/

theorem isName_pageName (path : String) : Path.IsName (pageName path) := by
  have hstem : '/' ∉ ((Path.stem? path).getD "page").toList := by
    cases hname : Path.stem? path with
    | none => decide
    | some stem => exact Path.noSlash_of_stem? hname
  have hlength : 2 < (pageName path).toList.length := by
    rw [pageName, String.toList_append, List.length_append]
    exact Nat.lt_add_left _ (by decide)
  have hlonger {other : String} (hother : other.toList.length ≤ 2) : pageName path ≠ other := by
    rintro rfl
    omega
  refine ⟨?_, hlonger (by decide), hlonger (by decide), hlonger (by decide)⟩
  rw [pageName, String.toList_append, List.mem_append]
  rintro (hslash | hslash)
  · exact hstem hslash
  · revert hslash
    decide

/-! ## Files on their own -/

/-- A file is read, made into a page and written, if nothing else happens. -/
structure Renders (c : Config) (w : World) (path : String) (page : Page) : Prop where
  made : ∃ text, w.files.read w.cwd path = .ok text ∧ pageOf c text = .ok page
  written : ∃ t, w.files.write w.cwd (target c path) page.html = .ok t

theorem Renders.unique {w : World} {path : String} {page page' : Page}
    (h : Renders c w path page) (h' : Renders c w path page') : page = page' := by
  obtain ⟨text, hread, hpage⟩ := h.made
  obtain ⟨text', hread', hpage'⟩ := h'.made
  rw [hread] at hread'
  cases hread'
  rw [hpage] at hpage'
  cases hpage'
  rfl

/-- A page is written to its place unless there is a directory. -/
theorem write_target_eq_ok_iff {w : World} {path html : String} {t : FileTree} :
    w.files.write w.cwd (target c path) html = .ok t ↔
      ∃ place, w.files.locate w.cwd (target c path) = .ok place ∧
        w.files.at? place ≠ some .directory ∧ t = w.files.put place (.file html) :=
  FileTree.write_join_eq_ok_iff (isName_pageName path)

/-! ## What stays true while files are processed -/

section Invariant

variable {w₀ : World} {files : List String}

/-- A place holds the page of a file that is done. -/
def HoldsPage (c : Config) (w₀ : World) (jobs : List Job) (w : World) (place : List String) :
    Prop :=
  ∃ path r page, (path, Stage.done (.ok r)) ∈ jobs ∧ Renders c w₀ path page ∧
    w₀.files.locate w₀.cwd (target c path) = .ok place ∧
    w.files.at? place = some (.file page.html)

/-- A file lies at the place where the page of another one belongs. -/
def Taken (c : Config) (w₀ : World) (files : List String) (path : String) : Prop :=
  ∃ other ∈ files, other ≠ path ∧ (∃ page, Renders c w₀ other page) ∧
    ∃ place, w₀.files.locate w₀.cwd path = .ok place ∧
      w₀.files.locate w₀.cwd (target c other) = .ok place

/-- How far a file has come is in order. It only fails without reason if its place is taken. -/
def InOrder (c : Config) (w₀ : World) (files : List String) (jobs : List Job) (w : World)
    (path : String) : Stage → Prop
  | .waiting => True
  | .made page => ∃ text, w₀.files.read w₀.cwd path = .ok text ∧ pageOf c text = .ok page
  | .done (.ok r) => r.target = target c path ∧ ∃ page place, Renders c w₀ path page ∧
      w₀.files.locate w₀.cwd (target c path) = .ok place ∧ HoldsPage c w₀ jobs w place
  | .done (.error _) => ∀ page, Renders c w₀ path page → Taken c w₀ files path

/-- What holds between any two steps of a run that starts in a world. -/
structure Invariant (c : Config) (w₀ : World) (files : List String) (jobs : List Job)
    (w : World) : Prop where
  paths : jobs.map Prod.fst = files
  cwd : w.cwd = w₀.cwd
  directories : w₀.files.SameDirectories w.files
  places : ∀ place, w.files.at? place = w₀.files.at? place ∨ HoldsPage c w₀ jobs w place
  inOrder : ∀ path stage, (path, stage) ∈ jobs → InOrder c w₀ files jobs w path stage

theorem invariant_unread (c : Config) (w₀ : World) (files : List String) :
    Invariant c w₀ files (unread files) w₀ where
  paths := by simp [unread, Function.comp_def]
  cwd := rfl
  directories := .refl _
  places := fun _ => .inl rfl
  inOrder := by
    intro path stage hmem
    obtain ⟨-, rfl⟩ := mem_unread_iff.mp hmem
    trivial

theorem HoldsPage.startsAsMarkup {jobs : List Job} {w : World} {place : List String}
    (h : HoldsPage c w₀ jobs w place) :
    ∃ html, w.files.at? place = some (.file html) ∧ StartsAsMarkup html := by
  obtain ⟨path, r, page, -, hrenders, -, hheld⟩ := h
  obtain ⟨text, -, hpage⟩ := hrenders.made
  exact ⟨page.html, hheld, startsAsMarkup_of_pageOf hpage⟩

section Reading

variable {jobs : List Job} {w : World} {path text : String}

theorem Invariant.locate_iff (h : Invariant c w₀ files jobs w) {place : List String} :
    w.files.locate w.cwd path = .ok place ↔ w₀.files.locate w₀.cwd path = .ok place := by
  rw [h.cwd]
  exact h.directories.locate_iff

/-- What is found on the way, if it is no page, has been there before. -/
theorem Invariant.read_before (h : Invariant c w₀ files jobs w)
    (hread : w.files.read w.cwd path = .ok text) (htext : ¬ StartsAsMarkup text) :
    w₀.files.read w₀.cwd path = .ok text := by
  obtain ⟨place, hplace, hfile⟩ := FileTree.read_eq_ok_iff.mp hread
  refine FileTree.read_eq_ok_iff.mpr ⟨place, h.locate_iff.mp hplace, ?_⟩
  rcases h.places place with hsame | hpage
  · rw [← hsame, hfile]
  · obtain ⟨html, hheld, hhtml⟩ := hpage.startsAsMarkup
    rw [hfile] at hheld
    cases hheld
    exact absurd hhtml htext

/-- A file still has its text as long as its place does not hold a page. -/
theorem Invariant.read_after (h : Invariant c w₀ files jobs w)
    (hread : w₀.files.read w₀.cwd path = .ok text) :
    w.files.read w.cwd path = .ok text ∨
      ∃ place, w₀.files.locate w₀.cwd path = .ok place ∧ HoldsPage c w₀ jobs w place := by
  obtain ⟨place, hplace, hfile⟩ := FileTree.read_eq_ok_iff.mp hread
  rcases h.places place with hsame | hpage
  · have hstill : w.files.at? place = some (.file text) := hsame.trans hfile
    exact .inl (FileTree.read_eq_ok_iff.mpr ⟨place, h.locate_iff.mpr hplace, hstill⟩)
  · exact .inr ⟨place, hplace, hpage⟩

theorem Invariant.read_page (h : Invariant c w₀ files jobs w) {place : List String}
    (hplace : w₀.files.locate w₀.cwd path = .ok place) (hpage : HoldsPage c w₀ jobs w place) :
    ∃ html, w.files.read w.cwd path = .ok html ∧ StartsAsMarkup html := by
  obtain ⟨html, hheld, hmarkup⟩ := hpage.startsAsMarkup
  have hread := FileTree.read_eq_ok_iff.mpr ⟨place, h.locate_iff.mpr hplace, hheld⟩
  exact ⟨html, hread, hmarkup⟩

/-- A page is still written where it would have been written at the start, or not at all. -/
theorem Invariant.write_eq_ok_iff (h : Invariant c w₀ files jobs w) {html : String}
    {t : FileTree} : w.files.write w.cwd (target c path) html = .ok t ↔
      ∃ place, w₀.files.locate w₀.cwd (target c path) = .ok place ∧
        w₀.files.at? place ≠ some .directory ∧ t = w.files.put place (.file html) := by
  rw [write_target_eq_ok_iff]
  simp only [h.locate_iff, ne_eq, h.directories _]

end Reading

section Stepping

variable {before after : List Job} {path : String} {stage stage' : Stage} {w w' : World}

theorem done_mem_of_step (hstep : Step c path stage w stage' w') {other : String}
    {outcome : Except RunError Rendering}
    (hmem : (other, .done outcome) ∈ before ++ (path, stage) :: after) :
    (other, .done outcome) ∈ before ++ (path, stage') :: after := by
  have hstage : stage ≠ .done outcome := by
    rintro rfl
    cases hstep
  simp only [List.mem_append, List.mem_cons, Prod.mk.injEq] at hmem ⊢
  rcases hmem with hmem | ⟨-, heq⟩ | hmem
  · exact .inl hmem
  · exact absurd heq.symm hstage
  · exact .inr (.inr hmem)

theorem HoldsPage.step {place : List String} (hstep : Step c path stage w stage' w')
    (hplaces : ∀ place, w'.files.at? place = w.files.at? place ∨
      HoldsPage c w₀ (before ++ (path, stage') :: after) w' place)
    (h : HoldsPage c w₀ (before ++ (path, stage) :: after) w place) :
    HoldsPage c w₀ (before ++ (path, stage') :: after) w' place := by
  rcases hplaces place with hsame | hpage
  · obtain ⟨other, r, page, hmem, hrenders, hplace, hheld⟩ := h
    exact ⟨other, r, page, done_mem_of_step hstep hmem, hrenders, hplace, hsame.trans hheld⟩
  · exact hpage

theorem InOrder.step (hstep : Step c path stage w stage' w')
    (hplaces : ∀ place, w'.files.at? place = w.files.at? place ∨
      HoldsPage c w₀ (before ++ (path, stage') :: after) w' place) {other : String}
    {otherStage : Stage}
    (h : InOrder c w₀ files (before ++ (path, stage) :: after) w other otherStage) :
    InOrder c w₀ files (before ++ (path, stage') :: after) w' other otherStage := by
  cases otherStage with
  | waiting => trivial
  | made page => exact h
  | done outcome =>
    cases outcome with
    | error e => exact h
    | ok r =>
      obtain ⟨htarget, page, place, hrenders, hplace, hpage⟩ := h
      exact ⟨htarget, page, place, hrenders, hplace, hpage.step hstep hplaces⟩

/-- A step keeps the invariant if it leaves the file in order, and writes nothing but a page. -/
theorem Invariant.advance (h : Invariant c w₀ files (before ++ (path, stage) :: after) w)
    (hstep : Step c path stage w stage' w') (hcwd : w'.cwd = w.cwd)
    (hdirectories : w.files.SameDirectories w'.files)
    (hplaces : ∀ place, w'.files.at? place = w.files.at? place ∨
      HoldsPage c w₀ (before ++ (path, stage') :: after) w' place)
    (hpath : InOrder c w₀ files (before ++ (path, stage') :: after) w' path stage') :
    Invariant c w₀ files (before ++ (path, stage') :: after) w' where
  paths := by
    rw [← h.paths]
    simp
  cwd := hcwd.trans h.cwd
  directories := h.directories.trans hdirectories
  places := by
    intro place
    rcases h.places place with hsame | hpage
    · exact (hplaces place).imp_left fun hsame' => hsame'.trans hsame
    · exact .inr (hpage.step hstep hplaces)
  inOrder := by
    intro other otherStage hmem
    have hothers (hother : (other, otherStage) ∈ before ++ (path, stage) :: after) :
        InOrder c w₀ files (before ++ (path, stage') :: after) w' other otherStage :=
      (h.inOrder other otherStage hother).step hstep hplaces
    simp only [List.mem_append, List.mem_cons, Prod.mk.injEq] at hmem hothers
    rcases hmem with hmem | ⟨rfl, rfl⟩ | hmem
    · exact hothers (.inl hmem)
    · exact hpath
    · exact hothers (.inr (.inr hmem))

/-- A page at the place of a file that waits is the page of another file. -/
theorem Invariant.taken (h : Invariant c w₀ files (before ++ (path, .waiting) :: after) w)
    (hfiles : files.Nodup) {place : List String}
    (hplace : w₀.files.locate w₀.cwd path = .ok place)
    (hpage : HoldsPage c w₀ (before ++ (path, .waiting) :: after) w place) :
    Taken c w₀ files path := by
  obtain ⟨other, r, page, hmem, hrenders, hother, -⟩ := hpage
  have hne : other ≠ path := by
    rintro rfl
    rw [← h.paths, List.map_append, List.map_cons, List.nodup_append, List.nodup_cons] at hfiles
    obtain ⟨-, ⟨hafter, -⟩, hbefore⟩ := hfiles
    simp only [List.mem_append, List.mem_cons, Prod.mk.injEq, reduceCtorEq, and_false,
      false_or] at hmem
    rcases hmem with hmem | hmem
    · exact hbefore _ (List.mem_map.mpr ⟨_, hmem, rfl⟩) _ List.mem_cons_self rfl
    · exact hafter (List.mem_map.mpr ⟨_, hmem, rfl⟩)
  have hfile : other ∈ files := by
    rw [← h.paths]
    exact List.mem_map_of_mem hmem
  exact ⟨other, hfile, hne, ⟨page, hrenders⟩, place, hplace, hother⟩

/-- A file that would be rendered alone only fails to be made into a page if its place is taken. -/
theorem Invariant.taken_of_unmade
    (h : Invariant c w₀ files (before ++ (path, .waiting) :: after) w) (hfiles : files.Nodup)
    (hunmade : ∀ text page, w.files.read w.cwd path = .ok text → pageOf c text ≠ .ok page)
    {page : Page} (hrenders : Renders c w₀ path page) : Taken c w₀ files path := by
  obtain ⟨text, hread, hpage⟩ := hrenders.made
  rcases h.read_after hread with hread' | ⟨place, hplace, hheld⟩
  · exact absurd hpage (hunmade text page hread')
  · exact h.taken hfiles hplace hheld

theorem Invariant.step (h : Invariant c w₀ files (before ++ (path, stage) :: after) w)
    (hfiles : files.Nodup) (hstep : Step c path stage w stage' w') :
    Invariant c w₀ files (before ++ (path, stage') :: after) w' := by
  cases hstep with
  | unreadable hread =>
    refine h.advance (.unreadable hread) rfl (.refl _) (fun _ => .inl rfl) ?_
    exact fun page hrenders => h.taken_of_unmade hfiles (fun text page hread' => by
      rw [hread] at hread'
      cases hread') hrenders
  | refused hread hpage =>
    refine h.advance (.refused hread hpage) rfl (.refl _) (fun _ => .inl rfl) ?_
    exact fun page hrenders => h.taken_of_unmade hfiles (fun text page hread' hpage' => by
      rw [hread] at hread'
      cases hread'
      rw [hpage] at hpage'
      cases hpage') hrenders
  | made hread hpage =>
    refine h.advance (.made hread hpage) rfl (.refl _) (fun _ => .inl rfl) ?_
    -- the text is the one from the start: a page that lies there by now makes no page
    refine ⟨_, h.read_before hread fun hmarkup => ?_, hpage⟩
    rw [pageOf_of_startsAsMarkup hmarkup] at hpage
    cases hpage
  | @unwritable _ page e hwrite =>
    refine h.advance (.unwritable hwrite) rfl (.refl _) (fun _ => .inl rfl) ?_
    intro page' hrenders
    obtain ⟨t, hwrite₀⟩ := hrenders.written
    obtain ⟨place, hplace, hfile, -⟩ := write_target_eq_ok_iff.mp hwrite₀
    cases hwrite.symm.trans (h.write_eq_ok_iff.mpr ⟨place, hplace, hfile, rfl⟩)
  | @written _ page t hwrite =>
    obtain ⟨place, hplace, hfile, rfl⟩ := h.write_eq_ok_iff.mp hwrite
    have hrenders : Renders c w₀ path page :=
      ⟨h.inOrder path (.made page) (by simp), _,
        write_target_eq_ok_iff.mpr ⟨place, hplace, hfile, rfl⟩⟩
    have hfile' : w.files.at? place ≠ some .directory := by
      rwa [ne_eq, h.directories]
    have hplace_ne : place ≠ [] := by
      rintro rfl
      exact hfile rfl
    have hput := FileTree.at?_put w.files hplace_ne (.file page.html)
    have hpage : HoldsPage c w₀
        (before ++ (path, .done (.ok ⟨target c path, page.warnings⟩)) :: after)
        { w with files := w.files.put place (.file page.html) } place := by
      refine ⟨path, ⟨target c path, page.warnings⟩, page, by simp, hrenders, hplace, ?_⟩
      rw [hput, if_pos rfl]
    refine h.advance (.written hwrite) rfl (FileTree.sameDirectories_put hfile' _) ?_ ?_
    · intro other
      by_cases hother : other = place
      · rw [hother]
        exact .inr hpage
      · exact .inl (by rw [hput, if_neg hother])
    · exact ⟨rfl, page, place, hrenders, hplace, hpage⟩

end Stepping

/-! ## Ends of runs -/

section Ending

variable {w w' : World} {t : FileTree} {outcomes : Outcomes} {code : Nat} {path : String}

theorem Ends.invariant (h : Ends c w t files outcomes code w') (hfiles : files.Nodup) :
    ∃ processed, Invariant c (opened c w t) files (finished outcomes) processed ∧
      w'.files = processed.files ∧
      (code = 0 ↔ ∀ path outcome, (path, outcome) ∈ outcomes → ∃ r, outcome = .ok r) := by
  obtain ⟨processed, hprocessed, hconclude⟩ := h
  obtain ⟨hcode, hunchanged⟩ := conclude_run outcomes processed
  rw [hconclude] at hcode hunchanged
  exact ⟨processed, hprocessed.invariant (fun hstep hI => hI.step hfiles hstep)
      (invariant_unread c _ files),
    hunchanged, hcode⟩

theorem Invariant.exists_outcome (h : Invariant c w₀ files (finished outcomes) w)
    (hpath : path ∈ files) : ∃ outcome, (path, outcome) ∈ outcomes := by
  rw [← h.paths] at hpath
  obtain ⟨⟨_, stage⟩, hmem, rfl⟩ := List.mem_map.mp hpath
  obtain ⟨outcome, houtcome, -⟩ := mem_finished_iff.mp hmem
  exact ⟨outcome, houtcome⟩

theorem Invariant.mem_files (h : Invariant c w₀ files (finished outcomes) w)
    {outcome : Except RunError Rendering} (hmem : (path, outcome) ∈ outcomes) : path ∈ files := by
  rw [← h.paths]
  exact List.mem_map.mpr ⟨_, mem_finished_iff.mpr ⟨outcome, hmem, rfl⟩, rfl⟩

theorem Invariant.taken_of_error (h : Invariant c w₀ files (finished outcomes) w)
    {e : RunError} (herror : (path, .error e) ∈ outcomes) {page : Page}
    (hrenders : Renders c w₀ path page) : Taken c w₀ files path :=
  h.inOrder path _ (mem_finished_iff.mpr ⟨_, herror, rfl⟩) page hrenders

/-- What was rendered is rendered alone as well. At its place is a page of that name. -/
theorem Invariant.read_target (h : Invariant c w₀ files (finished outcomes) w) {r : Rendering}
    (hrendered : (path, .ok r) ∈ outcomes) :
    r.target = target c path ∧ (∃ page, Renders c w₀ path page) ∧
      ∃ other ∈ files, pageName other = pageName path ∧ ∃ page, Renders c w₀ other page ∧
        w.files.read w₀.cwd r.target = .ok page.html := by
  obtain ⟨htarget, page, place, hrenders, hplace, hpage⟩ :=
    h.inOrder path _ (mem_finished_iff.mpr ⟨_, hrendered, rfl⟩)
  obtain ⟨other, _, otherPage, hmem, hother, hotherPlace, hheld⟩ := hpage
  refine ⟨htarget, ⟨page, hrenders⟩, other, ?_, ?_, otherPage, hother, ?_⟩
  · rw [← h.paths]
    exact List.mem_map.mpr ⟨_, hmem, rfl⟩
  · obtain ⟨_, -, hparent, -⟩ := FileTree.locate_join (isName_pageName path) hplace
    obtain ⟨_, -, hparent', -⟩ := FileTree.locate_join (isName_pageName other) hotherPlace
    rw [hparent] at hparent'
    exact (List.singleton_inj.mp (List.append_inj_right' hparent' rfl)).symm
  · rw [htarget]
    exact FileTree.read_eq_ok_iff.mpr ⟨place, h.directories.locate_iff.mpr hplace, hheld⟩

end Ending

end Invariant

end Run
end Folio
