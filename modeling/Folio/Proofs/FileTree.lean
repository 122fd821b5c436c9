import Folio.FileTree

/-!
# Folio.Proofs.FileTree

Where paths lead, and what writing a file changes. Ways through a tree go by its directories alone,
and no file is ever written in place of a directory, so writing does not change where a path leads.

* `FileTree.locate_join`: names below one path lead to places side by side.
* `FileTree.write_eq_ok_iff`: when a file is written, and to which place.
* `FileTree.SameDirectories`: two trees that differ in files only.
-/

namespace Folio

/-! ## Paths -/

namespace Path

/-- A name of something in a directory. -/
structure IsName (name : String) : Prop where
  noSlash : '/' ∉ name.toList
  ne_empty : name ≠ ""
  ne_dot : name ≠ "."
  ne_dots : name ≠ ".."

theorem withoutExtension_subset (name : List Char) : withoutExtension name ⊆ name := by
  have hdropped : name.reverse.dropWhile (· != '.') ⊆ name := fun c hc =>
    List.mem_reverse.mp ((List.dropWhile_suffix _).subset hc)
  unfold withoutExtension
  split
  · exact List.Subset.refl _
  · exact List.Subset.refl _
  · rename_i heq
    rw [heq] at hdropped
    exact fun c hc => hdropped (List.mem_cons_of_mem _ (List.mem_reverse.mp hc))

theorem noSlash_of_name? {path : String} {name : List Char} (h : name? path = some name) :
    '/' ∉ name := by
  intro hslash
  simp only [name?] at h
  split at h
  · cases h
  · cases h
    have := List.all_takeWhile (p := (· != '/')) (l := trimReversed path.toList.reverse)
    rw [List.all_eq_true] at this
    simpa using this _ (List.mem_reverse.mp hslash)

theorem noSlash_of_stem? {path stem : String} (h : stem? path = some stem) :
    '/' ∉ stem.toList := by
  obtain ⟨name, hname, rfl⟩ := Option.map_eq_some_iff.mp h
  rw [String.toList_ofList]
  exact fun hslash => noSlash_of_name? hname (withoutExtension_subset name hslash)

/-- What may stand right in front of a name: nothing, or a path that ends in a slash. -/
def IsFront (front : String) : Prop :=
  front.toList.getLast?.all (· == '/') = true

theorem isFront_empty : IsFront "" := rfl

theorem isFront_slash (base : String) : IsFront (base ++ "/") := by
  simp [IsFront]

theorem IsFront.append {front behind : String} (hfront : IsFront front) (hbehind : IsFront behind) :
    IsFront (front ++ behind) := by
  unfold IsFront at *
  rw [String.toList_append, List.getLast?_append]
  cases hlast : behind.toList.getLast? with
  | none => simpa using hfront
  | some c => simpa [hlast] using hbehind

theorem not_isAbsolute {name : String} (h : '/' ∉ name.toList) : isAbsolute name = false := by
  unfold isAbsolute
  cases hname : name.toList with
  | nil => rfl
  | cons c rest =>
    rw [hname] at h
    have hc : c ≠ '/' := fun heq => h (heq ▸ List.mem_cons_self)
    simpa using hc

theorem isAbsolute_append {front name : String} (h : '/' ∉ name.toList) :
    isAbsolute (front ++ name) = isAbsolute front := by
  cases hfront : front.toList with
  | nil =>
    obtain rfl := String.toList_eq_nil_iff.mp hfront
    rw [String.empty_append]
    exact not_isAbsolute h
  | cons c rest => simp [isAbsolute, hfront]

/-- Whatever a name is, a path puts the same in front of it. -/
theorem exists_front_join (base : String) {front : String} (hfront : IsFront front) :
    ∃ front', IsFront front' ∧
      ∀ name : String, '/' ∉ name.toList → join base (front ++ name) = front' ++ name := by
  by_cases habsolute : isAbsolute front = true
  · refine ⟨front, hfront, fun name hname => ?_⟩
    rw [join, isAbsolute_append hname, if_pos habsolute]
  · by_cases hbase : base.toList.getLast?.all (· == '/') = true
    · refine ⟨base ++ front, IsFront.append hbase hfront, fun name hname => ?_⟩
      rw [join, isAbsolute_append hname, if_neg habsolute, if_pos hbase, String.append_assoc]
    · refine ⟨base ++ "/" ++ front, (isFront_slash base).append hfront, fun name hname => ?_⟩
      rw [join, isAbsolute_append hname, if_neg habsolute, if_neg hbase, ← String.append_assoc]

theorem bne_slash_of_noSlash {cs : List Char} (h : '/' ∉ cs) : ∀ c ∈ cs, (c != '/') = true := by
  intro c hc
  rw [bne_iff_ne]
  exact fun heq => h (heq ▸ hc)

theorem parts_of_noSlash {cs : List Char} (h : '/' ∉ cs) : parts cs = [String.ofList cs] := by
  have hrest : cs.dropWhile (· != '/') = [] := by
    have := @List.dropWhile_append_of_pos _ _ cs [] (bne_slash_of_noSlash h)
    rwa [List.append_nil] at this
  rw [parts]
  split
  · rfl
  · rename_i heq
    rw [hrest] at heq
    cases heq

theorem parts_of_slash {cs rest : List Char} (h : '/' ∉ cs) :
    parts (cs ++ '/' :: rest) = String.ofList cs :: parts rest := by
  have hrest : (cs ++ '/' :: rest).dropWhile (· != '/') = '/' :: rest := by
    rw [List.dropWhile_append_of_pos (bne_slash_of_noSlash h)]
    rfl
  have hfirst : (cs ++ '/' :: rest).takeWhile (· != '/') = cs := by
    rw [List.takeWhile_append_of_pos (bne_slash_of_noSlash h)]
    simp
  rw [parts]
  split
  · rename_i heq
    rw [hrest] at heq
    cases heq
  · rename_i heq
    rw [hrest] at heq
    cases heq
    rw [hfirst]

/-- The parts on both sides of a slash. -/
theorem parts_append_slash (cs rest : List Char) :
    parts (cs ++ '/' :: rest) = parts cs ++ parts rest := by
  by_cases hslash : '/' ∈ cs
  · obtain ⟨as, bs, rfl, has⟩ := List.eq_append_cons_of_mem hslash
    rw [List.append_assoc, List.cons_append, parts_of_slash has, parts_of_slash has,
      parts_append_slash bs rest, List.cons_append]
  · rw [parts_of_slash hslash, parts_of_noSlash hslash, List.singleton_append]
termination_by cs.length
decreasing_by simp_all; omega

/-- The name below a front is the last part of its path. -/
theorem exists_parts_append {front : String} (hfront : IsFront front) :
    ∃ ps, ∀ name : String, '/' ∉ name.toList → parts (front ++ name).toList = ps ++ [name] := by
  rcases List.eq_nil_or_concat front.toList with hempty | ⟨cs, c, hcs⟩
  · refine ⟨[], fun name hname => ?_⟩
    rw [String.toList_append, hempty, List.nil_append, parts_of_noSlash hname, String.ofList_toList,
      List.nil_append]
  · have hc : c = '/' := by simpa [IsFront, hcs] using hfront
    refine ⟨parts cs, fun name hname => ?_⟩
    rw [String.toList_append, hcs, hc, List.concat_eq_append, List.append_assoc,
      List.singleton_append, parts_append_slash, parts_of_noSlash hname, String.ofList_toList]

/-- The parts of the path of a name below a path, seen from a working directory. -/
theorem exists_parts_join (cwd dir : String) :
    ∃ ps, ∀ name : String, '/' ∉ name.toList →
      parts (join cwd (join dir name)).toList = ps ++ [name] := by
  obtain ⟨front, hfront, hdir⟩ := exists_front_join dir isFront_empty
  obtain ⟨front', hfront', hcwd⟩ := exists_front_join cwd hfront
  obtain ⟨ps, hps⟩ := exists_parts_append hfront'
  refine ⟨ps, fun name hname => ?_⟩
  have hjoin : join dir name = front ++ name := by
    rw [← hdir name hname, String.empty_append]
  rw [hjoin, hcwd name hname, hps name hname]

end Path

namespace FileTree

variable {t t' : FileTree}

/-! ## Places -/

theorem lookup_filter_ne {place other : List String} (hother : other ≠ place)
    (entries : List (List String × FileEntry)) :
    (entries.filter (·.1 != place)).lookup other = entries.lookup other := by
  induction entries with
  | nil => rfl
  | cons entry rest ih =>
    obtain ⟨first, held⟩ := entry
    by_cases hfirst : first = place
    · subst hfirst
      rw [List.filter_cons_of_neg (by simp), ih, List.lookup_cons, beq_false_of_ne hother]
    · rw [List.filter_cons_of_pos (by simpa using hfirst), List.lookup_cons, List.lookup_cons, ih]

/-- A place holds what was put there, and the others what they held. -/
theorem at?_put (t : FileTree) {place : List String} (hplace : place ≠ []) (entry : FileEntry)
    (other : List String) :
    (t.put place entry).at? other = if other = place then some entry else t.at? other := by
  unfold at? put
  by_cases hother : other = place
  · subst hother
    simp [hplace]
  · simp [hother, List.lookup_cons, beq_false_of_ne hother, lookup_filter_ne hother]

/-! ## Directories -/

/-- Two trees have the same directories. -/
def SameDirectories (t t' : FileTree) : Prop :=
  ∀ place, t'.at? place = some .directory ↔ t.at? place = some .directory

theorem SameDirectories.refl (t : FileTree) : SameDirectories t t :=
  fun _ => Iff.rfl

theorem SameDirectories.trans {t'' : FileTree} (h : SameDirectories t t')
    (h' : SameDirectories t' t'') : SameDirectories t t'' :=
  fun place => (h' place).trans (h place)

theorem sameDirectories_put {place : List String} (h : t.at? place ≠ some .directory)
    (text : String) : SameDirectories t (t.put place (.file text)) := by
  intro other
  have hplace : place ≠ [] := by
    rintro rfl
    exact h rfl
  rw [at?_put t hplace]
  split
  · rename_i hother
    rw [hother]
    exact ⟨fun hfile => (by cases hfile), fun hdir => absurd hdir h⟩
  · exact Iff.rfl

theorem walk_append (t : FileTree) (place ps qs : List String) :
    t.walk place (ps ++ qs) = (t.walk place ps >>= fun middle => t.walk middle qs) := by
  induction ps generalizing place with
  | nil => rfl
  | cons part rest ih =>
    rw [List.cons_append, walk, walk]
    cases t.at? place with
    | none => rfl
    | some entry =>
      cases entry with
      | file text => rfl
      | directory =>
        simp only [ih]
        split
        · rfl
        · split <;> rfl

/-- One more part leads on from directories only. -/
theorem walk_cons_eq_ok_iff {place last : List String} {part : String} {rest : List String} :
    t.walk place (part :: rest) = .ok last ↔ t.at? place = some .directory ∧
      t.walk (if part = "" || part = "." then place
        else if part = ".." then place.dropLast else place ++ [part]) rest = .ok last := by
  rw [walk]
  cases hplace : t.at? place with
  | none => simp
  | some entry =>
    cases entry with
    | file text => simp
    | directory =>
      simp only [true_and]
      split
      · rfl
      · split <;> rfl

/-- Where ways lead is a matter of the directories. -/
theorem SameDirectories.walk_iff (h : SameDirectories t t') {place last ps : List String} :
    t'.walk place ps = .ok last ↔ t.walk place ps = .ok last := by
  induction ps generalizing place with
  | nil => rfl
  | cons part rest ih => rw [walk_cons_eq_ok_iff, walk_cons_eq_ok_iff, h place, ih]

theorem SameDirectories.locate_iff (h : SameDirectories t t') {cwd path : String}
    {place : List String} : t'.locate cwd path = .ok place ↔ t.locate cwd path = .ok place := by
  unfold locate
  split
  · rfl
  · exact h.walk_iff

/-- If a name below a path leads anywhere, then into a directory, and all other names below that
path lead into it as well. -/
theorem locate_join {cwd dir name : String} {place : List String} (hname : Path.IsName name)
    (h : t.locate cwd (Path.join dir name) = .ok place) :
    ∃ parent, t.at? parent = some .directory ∧ place = parent ++ [name] ∧
      ∀ other, Path.IsName other →
        t.locate cwd (Path.join dir other) = .ok (parent ++ [other]) := by
  obtain ⟨ps, hps⟩ := Path.exists_parts_join cwd dir
  have hlocate {other : String} (hother : Path.IsName other) {last : List String} :
      t.locate cwd (Path.join dir other) = .ok last ↔
        ∃ parent, t.walk [] ps = .ok parent ∧ t.at? parent = some .directory ∧
          parent ++ [other] = last := by
    have hnonempty := Path.join_ne_empty dir hother.ne_empty
    rw [locate, if_neg (by simpa using hnonempty), hps other hother.noSlash, walk_append]
    cases t.walk [] ps with
    | error e => simp [bind, Except.bind]
    | ok parent =>
      change t.walk parent [other] = .ok last ↔ _
      rw [walk_cons_eq_ok_iff]
      simp [walk, hother.ne_empty, hother.ne_dot, hother.ne_dots]
  obtain ⟨parent, hwalk, hparent, rfl⟩ := (hlocate hname).mp h
  refine ⟨parent, hparent, rfl, fun other hother => ?_⟩
  exact (hlocate hother).mpr ⟨parent, hwalk, hparent, rfl⟩

/-! ## Reading and writing -/

theorem read_eq_ok_iff {cwd path text : String} :
    t.read cwd path = .ok text ↔
      ∃ place, t.locate cwd path = .ok place ∧ t.at? place = some (.file text) := by
  unfold read find
  cases t.locate cwd path with
  | error e => simp
  | ok place =>
    cases hplace : t.at? place with
    | none => simp [hplace]
    | some entry => cases entry <;> simp [hplace]

/-- A name below a path is written to its place unless there is a directory. -/
theorem write_join_eq_ok_iff {cwd dir name text : String} (hname : Path.IsName name) :
    t.write cwd (Path.join dir name) text = .ok t' ↔
      ∃ place, t.locate cwd (Path.join dir name) = .ok place ∧ t.at? place ≠ some .directory ∧
        t' = t.put place (.file text) := by
  unfold write
  cases hlocate : t.locate cwd (Path.join dir name) with
  | error e => simp
  | ok place =>
    obtain ⟨parent, hparent, rfl, -⟩ := locate_join hname hlocate
    cases hplace : t.at? (parent ++ [name]) with
    | none => simp [hplace, hparent, eq_comm]
    | some entry => cases entry <;> simp [hplace, eq_comm]

end FileTree
end Folio
