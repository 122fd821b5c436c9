import Folio.Proofs.Assembly.Depth
import Folio.Proofs.Command.Progress

/-!
# Folio.Proofs.Command.Independence

What the files of one run have to do with each other. Their pages are written to one directory,
under names that come from the names of the files, so two files can be in each other's way: their
pages may have one name, and a file may lie where the page of another one belongs.

* `Run.RendersAlone`, `Run.htmlAlone`: what becomes of a file that is given alone.
* `Run.Independent`: the end of a run is what these expect.
* `files_are_independent_iff`: this holds for all ways to process the files just if none is in the
  way of another.
* `overwritten_dump_is_lost`: it does not hold of all files.
-/

namespace Folio
namespace Run

variable {c : Config}

/-! ## Independence -/

section Independence

/-- The program gives the exit code zero for this file alone. -/
def RendersAlone (c : Config) (w : World) (path : String) : Prop :=
  ((renderAll c [path] : StateM World Nat) w).1 = 0

/-- The page of a file after the program was run with this file alone. -/
def htmlAlone (c : Config) (w : World) (path : String) : Except FileError String :=
  ((renderAll c [path] : StateM World Nat) w).2.files.read w.cwd (target c path)

/-- The end of a run with several files is what the runs with one of them make expect. -/
structure Independent (c : Config) (w : World) (t : FileTree) (files : List String)
    (outcomes : Outcomes) (code : Nat) (w' : World) : Prop where
  /-- The run succeeds if all files are rendered alone. -/
  code_eq_zero_iff : code = 0 ↔ ∀ path ∈ files, RendersAlone c w path
  /-- A file that is rendered alone is reported to be rendered, and its page is there. -/
  kept : ∀ path ∈ files, RendersAlone c w path → ∃ r html, (path, .ok r) ∈ outcomes ∧
    htmlAlone c w path = .ok html ∧ w'.files.read w.cwd r.target = .ok html
  /-- The other files leave no trace. -/
  untouched : ∀ place,
    (∀ path ∈ files, RendersAlone c w path → t.locate w.cwd (target c path) ≠ .ok place) →
      w'.files.at? place = t.at? place

/-- Files of which none is in the way of another. -/
structure Separate (c : Config) (w : World) (t : FileTree) (files : List String) : Prop where
  /-- Pages of one name have the same content. -/
  pages : ∀ path ∈ files, ∀ other ∈ files, RendersAlone c w path → RendersAlone c w other →
    pageName path = pageName other → htmlAlone c w path = htmlAlone c w other
  /-- No file lies where the page of another one is written. -/
  places : ∀ path ∈ files, ∀ other ∈ files, other ≠ path → RendersAlone c w path →
    RendersAlone c w other → t.locate w.cwd path ≠ t.locate w.cwd (target c other)

variable {w : World} {t : FileTree} {files : List String} {path : String}

/-- The place of a file alone cannot be taken, so nothing makes it fail. -/
theorem Invariant.exists_rendering {w₀ : World} {outcomes : Outcomes}
    (h : Invariant c w₀ [path] (finished outcomes) w) {other : String}
    {outcome : Except RunError Rendering} (hmem : (other, outcome) ∈ outcomes) {page : Page}
    (hrenders : Renders c w₀ path page) : ∃ r, outcome = .ok r := by
  obtain rfl := List.mem_singleton.mp (h.mem_files hmem)
  cases outcome with
  | ok r => exact ⟨r, rfl⟩
  | error e =>
    obtain ⟨another, hanother, hne, -⟩ := h.taken_of_error hmem hrenders
    exact absurd (List.mem_singleton.mp hanother) hne

theorem rendersAlone_iff (hdir : w.files.createDirAll w.cwd c.outputDir = .ok t) (path : String) :
    RendersAlone c w path ↔ ∃ page, Renders c (opened c w t) path page := by
  obtain ⟨processed, hinvariant, -, hcode⟩ := (renderAll_ends hdir [path]).invariant (by simp)
  rw [RendersAlone, hcode]
  constructor
  · intro hall
    obtain ⟨outcome, hmem⟩ := hinvariant.exists_outcome List.mem_cons_self
    obtain ⟨r, rfl⟩ := hall path outcome hmem
    exact (hinvariant.read_target hmem).2.1
  · rintro ⟨page, hrenders⟩ other outcome hmem
    exact hinvariant.exists_rendering hmem hrenders

theorem htmlAlone_eq (hdir : w.files.createDirAll w.cwd c.outputDir = .ok t) {page : Page}
    (hrenders : Renders c (opened c w t) path page) : htmlAlone c w path = .ok page.html := by
  obtain ⟨processed, hinvariant, hsame, -⟩ := (renderAll_ends hdir [path]).invariant (by simp)
  obtain ⟨outcome, hmem⟩ := hinvariant.exists_outcome List.mem_cons_self
  obtain ⟨r, rfl⟩ := hinvariant.exists_rendering hmem hrenders
  obtain ⟨htarget, -, other, hother, -, page', hrenders', hread⟩ := hinvariant.read_target hmem
  obtain rfl := List.mem_singleton.mp hother
  rw [htarget, ← hrenders.unique hrenders'] at hread
  rw [htmlAlone, hsame]
  exact hread

/-- If no file is in the way of another, every run ends as expected. -/
theorem independent_of_separate (hdir : w.files.createDirAll w.cwd c.outputDir = .ok t)
    (hfiles : files.Nodup) (hseparate : Separate c w t files) {outcomes : Outcomes} {code : Nat}
    {w' : World} (hends : Ends c w t files outcomes code w') :
    Independent c w t files outcomes code w' := by
  obtain ⟨processed, hinvariant, hsame, hcode⟩ := hends.invariant hfiles
  have halone := rendersAlone_iff hdir
  -- such a file could only fail if the page of another one had been put in its place
  have hrendered {path : String} {outcome : Except RunError Rendering}
      (hmem : (path, outcome) ∈ outcomes) (hrenders : RendersAlone c w path) :
      ∃ r, outcome = .ok r := by
    cases outcome with
    | ok r => exact ⟨r, rfl⟩
    | error e =>
      obtain ⟨page, hpage⟩ := (halone path).mp hrenders
      obtain ⟨other, hother, hne, hotherPage, place, hplace, htarget⟩ :=
        hinvariant.taken_of_error hmem hpage
      have hfree := hseparate.places path (hinvariant.mem_files hmem) other hother hne hrenders
        ((halone other).mpr hotherPage)
      exact absurd (hplace.trans htarget.symm) hfree
  constructor
  · rw [hcode]
    constructor
    · intro hall path hpath
      obtain ⟨outcome, hmem⟩ := hinvariant.exists_outcome hpath
      obtain ⟨r, rfl⟩ := hall path outcome hmem
      exact (halone path).mpr (hinvariant.read_target hmem).2.1
    · intro hall path outcome hmem
      exact hrendered hmem (hall path (hinvariant.mem_files hmem))
  · intro path hpath hrenders
    obtain ⟨outcome, hmem⟩ := hinvariant.exists_outcome hpath
    obtain ⟨r, rfl⟩ := hrendered hmem hrenders
    obtain ⟨-, -, other, hother, hname, page, hpage, hread⟩ := hinvariant.read_target hmem
    have hsamePage := hseparate.pages path hpath other hother hrenders
      ((halone other).mpr ⟨page, hpage⟩) hname.symm
    refine ⟨r, page.html, hmem, ?_, ?_⟩
    · rw [hsamePage, htmlAlone_eq hdir hpage]
    · rw [hsame]
      exact hread
  · intro place hfree
    rw [hsame]
    rcases hinvariant.places place with hsamePlace | hpage
    · exact hsamePlace
    · obtain ⟨other, r, page, hmem, hother, hplace, -⟩ := hpage
      obtain ⟨outcome, hmem', -⟩ := mem_finished_iff.mp hmem
      have htarget := hfree other (hinvariant.mem_files hmem') ((halone other).mpr ⟨page, hother⟩)
      exact absurd hplace htarget

/-! ## Files in the way of others -/

/-- A file waits, or has failed, although it is rendered alone: the page of another file has been
written to its place. -/
structure Overwritten (c : Config) (w₀ : World) (files : List String) (path other : String)
    (jobs : List Job) (w : World) : Prop where
  invariant : Invariant c w₀ files jobs w
  written : ∃ r, (other, .done (.ok r)) ∈ jobs
  stage : ∀ stage, (path, stage) ∈ jobs → stage = .waiting ∨ ∃ e, stage = .done (.error e)

theorem Overwritten.step {w₀ : World} {other : String} (hfiles : files.Nodup)
    (hplace : w₀.files.locate w₀.cwd path = w₀.files.locate w₀.cwd (target c other))
    {before after : List Job} {current : String} {stage stage' : Stage} {w w' : World}
    (hstep : Step c current stage w stage' w')
    (h : Overwritten c w₀ files path other (before ++ (current, stage) :: after) w) :
    Overwritten c w₀ files path other (before ++ (current, stage') :: after) w' := by
  obtain ⟨r, hwritten⟩ := h.written
  refine ⟨h.invariant.step hfiles hstep, ⟨r, done_mem_of_step hstep hwritten⟩, ?_⟩
  intro next hmem
  simp only [List.mem_append, List.mem_cons, Prod.mk.injEq] at hmem
  rcases hmem with hmem | ⟨rfl, rfl⟩ | hmem
  · exact h.stage next (by simp [hmem])
  · -- what is read at the path is a page by now, and no page is made of that
    obtain ⟨-, -, place, -, htarget, hpage⟩ := h.invariant.inOrder other _ hwritten
    obtain ⟨html, hread', hmarkup⟩ := h.invariant.read_page (hplace.trans htarget) hpage
    rcases h.stage stage (by simp) with rfl | ⟨e, rfl⟩
    · cases hstep with
      | unreadable hread => exact .inr ⟨_, rfl⟩
      | refused hread hrefused => exact .inr ⟨_, rfl⟩
      | made hread hmade =>
        rw [hread'] at hread
        cases hread
        rw [pageOf_of_startsAsMarkup hmarkup] at hmade
        cases hmade
    · cases hstep
  · exact h.stage next (by simp [hmem])

/-- If a file lies where the page of another one is written, and the other one comes first, it is
not rendered. -/
theorem exists_ends_not_rendered (hfiles : files.Nodup) {other : String} (hother : other ∈ files)
    (hne : other ≠ path) {page : Page} (hrenders : Renders c (opened c w t) other page)
    (hplace : t.locate w.cwd path = t.locate w.cwd (target c other)) :
    ∃ outcomes code w', Ends c w t files outcomes code w' ∧ ∀ r, (path, .ok r) ∉ outcomes := by
  obtain ⟨before, after, rfl⟩ := List.append_of_mem hother
  obtain ⟨⟨text, hread, hpage⟩, t', hwrite⟩ := hrenders
  have hstart : unread (before ++ other :: after) =
      unread before ++ (other, .waiting) :: unread after := by
    simp [unread]
  -- the run in which the other file is done before any file is looked at
  have hmade : Step c other .waiting (opened c w t) (.made page) (opened c w t) :=
    .made hread hpage
  have hwritten := Step.written hwrite
  have hinvariant := invariant_unread c (opened c w t) (before ++ other :: after)
  rw [hstart] at hinvariant
  have hbegun : Overwritten c (opened c w t) (before ++ other :: after) path other
      (unread before ++ (other, .done (.ok ⟨target c other, page.warnings⟩)) :: unread after)
      { opened c w t with files := t' } := by
    refine ⟨(hinvariant.step hfiles hmade).step hfiles hwritten,
      ⟨⟨target c other, page.warnings⟩, by simp⟩, fun stage hmem => .inl ?_⟩
    simp only [List.mem_append, List.mem_cons, Prod.mk.injEq, mem_unread_iff] at hmem
    rcases hmem with ⟨-, hwaiting⟩ | ⟨heq, -⟩ | ⟨-, hwaiting⟩
    · exact hwaiting
    · exact absurd heq.symm hne
    · exact hwaiting
  obtain ⟨outcomes, processed, hrest⟩ := exists_processed c
    (unread before ++ (other, .done (.ok ⟨target c other, page.warnings⟩)) :: unread after)
    { opened c w t with files := t' }
  have hended := hrest.invariant (fun hstep hI => Overwritten.step hfiles hplace hstep hI) hbegun
  refine ⟨outcomes, _, _, ⟨processed, ?_, rfl⟩, fun r hmem => ?_⟩
  · rw [hstart]
    exact .step hmade (.step hwritten hrest)
  · rcases hended.stage _ (mem_finished_iff.mpr ⟨_, hmem, rfl⟩) with heq | ⟨e, heq⟩
    · cases heq
    · cases heq

/-- Of two pages of one name one is lost, although both are reported. -/
theorem page_is_lost {outcomes : Outcomes} {code : Nat} {w' : World} {other : String}
    {r r' : Rendering} (hends : Ends c w t files outcomes code w') (hfiles : files.Nodup)
    (hmem : (path, .ok r) ∈ outcomes) (hmem' : (other, .ok r') ∈ outcomes)
    (hname : pageName path = pageName other) (hpages : htmlAlone c w path ≠ htmlAlone c w other) :
    w'.files.read w.cwd r.target ≠ htmlAlone c w path ∨
      w'.files.read w.cwd r'.target ≠ htmlAlone c w other := by
  obtain ⟨processed, hinvariant, -, -⟩ := hends.invariant hfiles
  have htarget : r.target = r'.target := by
    rw [(hinvariant.read_target hmem).1, (hinvariant.read_target hmem').1, target, target, hname]
  by_cases hread : w'.files.read w.cwd r.target = htmlAlone c w path
  · rw [← htarget, hread]
    exact .inr hpages
  · exact .inl hread

/-- If every run ends as expected, no file is in the way of another. -/
theorem separate_of_independent (hdir : w.files.createDirAll w.cwd c.outputDir = .ok t)
    (hfiles : files.Nodup) (h : ∀ outcomes code w', Ends c w t files outcomes code w' →
      Independent c w t files outcomes code w') : Separate c w t files := by
  constructor
  · intro path hpath other hother hrenders hrenders' hname
    have hends := renderAll_ends hdir files
    have hkept := (h _ _ _ hends).kept
    obtain ⟨r, html, hmem, halone, hread⟩ := hkept path hpath hrenders
    obtain ⟨r', html', hmem', halone', hread'⟩ := hkept other hother hrenders'
    refine Classical.byContradiction fun hpages => ?_
    rcases page_is_lost hends hfiles hmem hmem' hname hpages with hlost | hlost
    · exact hlost (hread.trans halone.symm)
    · exact hlost (hread'.trans halone'.symm)
  · intro path hpath other hother hne hrenders hrenders' hplace
    obtain ⟨page, hpage⟩ := (rendersAlone_iff hdir other).mp hrenders'
    obtain ⟨outcomes, code, w', hends, hlost⟩ :=
      exists_ends_not_rendered hfiles hother hne hpage hplace
    obtain ⟨r, html, hmem, -⟩ := (h outcomes code w' hends).kept path hpath hrenders
    exact hlost r hmem

/-- In whatever order the files of a run are processed, and the program processes them in one of
these ways, each ends as if it were alone, just if none is in the way of another. -/
theorem files_are_independent_iff {c : Config} {w : World} {t : FileTree} {files : List String}
    (hdir : w.files.createDirAll w.cwd c.outputDir = .ok t) (hfiles : files.Nodup) :
    (∃ outcomes, Ends c w t files outcomes
        ((renderAll c files : StateM World Nat) w).1
        ((renderAll c files : StateM World Nat) w).2) ∧
      ((∀ outcomes code w', Ends c w t files outcomes code w' →
          Independent c w t files outcomes code w') ↔ Separate c w t files) := by
  refine ⟨⟨_, renderAll_ends hdir files⟩, ?_⟩
  constructor
  · exact separate_of_independent hdir hfiles
  · intro hseparate outcomes code w' hends
    exact independent_of_separate hdir hfiles hseparate hends

end Independence

/-! ## Two files -/

section Dumps

/-- A text is a dump, and the tree of a root can be made of it. -/
def hasTree (c : Config) (root : String) (depth : Nat) (text : String) : Bool :=
  match RecordMap.ofText text with
  | .error _ => false
  | .ok records =>
    let assembler : Assembler :=
      { records, children := .ofRecords records, policy := c.missingChildren }
    decide (records.size < depth) && (assembler.assembleWithin depth root).any (·.isOk)

variable {w : World} {t : FileTree} {path root text : String} {depth : Nat}

theorem exists_pageOf_of_hasTree (hroot : c.rootId = some root)
    (h : hasTree c root depth text = true) : ∃ page, pageOf c text = .ok page := by
  unfold hasTree at h
  unfold pageOf treeOf rootOf
  cases htext : RecordMap.ofText text with
  | error e =>
    rw [htext] at h
    cases h
  | ok records =>
    simp only [htext, Bool.and_eq_true, decide_eq_true_eq] at h
    obtain ⟨hsize, htree⟩ := h
    rw [Assembler.assembleWithin_eq_assemble _ hsize] at htree
    simp only [hroot]
    revert htree
    cases Assembler.assemble _ root with
    | error e => exact fun hfalse => (by cases hfalse)
    | ok tree => exact fun _ => ⟨_, rfl⟩

theorem eq_ok_of_toOption {ε α : Type} {x : Except ε α} {a : α} (h : x.toOption = some a) :
    x = .ok a := by
  cases x <;> cases h
  rfl

theorem rendersAlone_of_hasTree (place : List String)
    (hdir : w.files.createDirAll w.cwd c.outputDir = .ok t)
    (hread : (t.read w.cwd path).toOption = some text) (hroot : c.rootId = some root)
    (htree : hasTree c root depth text = true)
    (hplace : (t.locate w.cwd (target c path)).toOption = some place)
    (hfile : t.at? place ≠ some .directory) : RendersAlone c w path := by
  obtain ⟨page, hpage⟩ := exists_pageOf_of_hasTree hroot htree
  refine (rendersAlone_iff hdir path).mpr ⟨page, ⟨text, eq_ok_of_toOption hread, hpage⟩, ?_⟩
  exact ⟨_, write_target_eq_ok_iff.mpr ⟨place, eq_ok_of_toOption hplace, hfile, rfl⟩⟩

/-- A dump of one page. -/
def onePage : String :=
  "\x7b\"block\":\x7b\"0eeee000ccccbbbbaaaa123450000000\":" ++
    "\x7b\"value\":\x7b\"type\":\"page\"\x7d\x7d\x7d\x7d"

/-- The page of that dump is rendered. -/
def renderOnePage : Config where
  outputDir := "site"
  rootId := some "0eeee000ccccbbbbaaaa123450000000"

/-- Two dumps side by side. -/
def twoDumps : World where
  files := ⟨[(["a.json"], .file onePage), (["b.json"], .file onePage)]⟩

/-- A dump beside the output directory, and one that lies where the page of the first belongs. -/
def nestedDumps : World where
  files := ⟨[(["site"], .directory), (["a.json"], .file onePage),
    (["site", "a.html"], .file onePage)]⟩

deriving instance DecidableEq for FileTree

theorem hasTree_onePage :
    hasTree renderOnePage "0eeee000ccccbbbbaaaa123450000000" 2 onePage = true := by
  decide +kernel

end Dumps

theorem twoDumps_are_independent :
    ((renderAll renderOnePage ["a.json", "b.json"] : StateM World Nat) twoDumps).1 = 0 ∧
      Independent renderOnePage twoDumps (twoDumps.files.put ["site"] .directory)
        ["a.json", "b.json"]
        (renderFiles (m := StateM World) renderOnePage ["a.json", "b.json"]
          (opened renderOnePage twoDumps (twoDumps.files.put ["site"] .directory))).1
        ((renderAll renderOnePage ["a.json", "b.json"] : StateM World Nat) twoDumps).1
        ((renderAll renderOnePage ["a.json", "b.json"] : StateM World Nat) twoDumps).2 := by
  have hdir : twoDumps.files.createDirAll twoDumps.cwd renderOnePage.outputDir =
      .ok (twoDumps.files.put ["site"] .directory) := eq_ok_of_toOption (by decide +kernel)
  have hseparate : Separate renderOnePage twoDumps (twoDumps.files.put ["site"] .directory)
      ["a.json", "b.json"] := by
    have hnames : ∀ path ∈ ["a.json", "b.json"], ∀ other ∈ ["a.json", "b.json"],
        pageName path = pageName other → path = other := by decide +kernel
    have hplaces : ∀ path ∈ ["a.json", "b.json"], ∀ other ∈ ["a.json", "b.json"],
        ((twoDumps.files.put ["site"] .directory).locate twoDumps.cwd path).toOption ≠
          ((twoDumps.files.put ["site"] .directory).locate twoDumps.cwd
            (target renderOnePage other)).toOption := by decide +kernel
    constructor
    · intro path hpath other hother _ _ hname
      rw [hnames path hpath other hother hname]
    · intro path hpath other hother _ _ _ hplace
      exact hplaces path hpath other hother (congrArg Except.toOption hplace)
  have hindependent := (files_are_independent_iff hdir (by decide)).2.mpr hseparate _ _ _
    (renderAll_ends hdir ["a.json", "b.json"])
  refine ⟨hindependent.code_eq_zero_iff.mpr fun path hpath => ?_, hindependent⟩
  simp only [List.mem_cons, List.not_mem_nil, or_false] at hpath
  rcases hpath with rfl | rfl
  · exact rendersAlone_of_hasTree ["site", "a.html"] hdir (by decide +kernel) rfl
      hasTree_onePage (by decide +kernel) (by decide)
  · exact rendersAlone_of_hasTree ["site", "b.html"] hdir (by decide +kernel) rfl
      hasTree_onePage (by decide +kernel) (by decide)

/-- A dump that lies where the page of another one is written is lost, although each of the two is
rendered alone. -/
theorem overwritten_dump_is_lost :
    ¬ ∀ (c : Config) (w : World) (t : FileTree) (files : List String),
      w.files.createDirAll w.cwd c.outputDir = .ok t → files.Nodup →
        ∀ outcomes code w', Ends c w t files outcomes code w' →
          Independent c w t files outcomes code w' := by
  intro h
  have hdir : nestedDumps.files.createDirAll nestedDumps.cwd renderOnePage.outputDir =
      .ok nestedDumps.files := eq_ok_of_toOption (by decide +kernel)
  have hnodup : ["a.json", "site/a.html"].Nodup := by decide
  have hseparate := separate_of_independent hdir hnodup
    (h renderOnePage nestedDumps nestedDumps.files _ hdir hnodup)
  have hpage : nestedDumps.files.locate nestedDumps.cwd (target renderOnePage "a.json") =
      .ok ["site", "a.html"] := eq_ok_of_toOption (by decide +kernel)
  have hdump : nestedDumps.files.locate nestedDumps.cwd "site/a.html" = .ok ["site", "a.html"] :=
    eq_ok_of_toOption (by decide +kernel)
  refine hseparate.places "site/a.html" (by simp) "a.json" (by simp) (by decide) ?_ ?_
    (hdump.trans hpage.symm)
  · exact rendersAlone_of_hasTree ["site", "a.html"] hdir (by decide +kernel) rfl
      hasTree_onePage (by decide +kernel) (by decide)
  · exact rendersAlone_of_hasTree ["site", "a.html"] hdir (by decide +kernel) rfl
      hasTree_onePage (by decide +kernel) (by decide)

end Run
end Folio
