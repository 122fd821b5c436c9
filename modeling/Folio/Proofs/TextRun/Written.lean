import Folio.Proofs.Json.Compact
import Folio.TextRun.Json
import Mathlib.Data.List.Nodup

/-!
# Folio.Proofs.TextRun.Written

Runs that are written and read again. A known marker is read as itself. An unknown one is written as
its code alone, and so it is read as the known marker of that code if there is one.

* `Style.reread`, `TextRun.reread`: what is read of a written marker and of a written run.
* `DateMention.ofJson?_toJson`: dates are read as they were written.
* `Style.reread_eq_self_iff`, `Style.reread_reread`: which markers come back, and that a second time
  nothing changes.
* `TextRun.written_runs_are_reread`: all of it for the texts of lists of runs.
-/

namespace Folio

theorem map_eq_self_iff {α : Type} {f : α → α} {xs : List α} :
    xs.map f = xs ↔ ∀ x ∈ xs, f x = x := by
  simpa using List.map_inj_left (f := f) (g := id) (l := xs)

/-! ## Dates -/

namespace DateMention

def texts (d : DateMention) : List (String × Option String) :=
  [("date_format", d.dateFormat), ("end_date", d.endDate), ("end_time", d.endTime),
   ("start_date", some d.startDate), ("start_time", d.startTime), ("time_zone", d.timeZone),
   ("type", d.kind)]

theorem names_texts (d : DateMention) :
    d.texts.map Prod.fst = ["date_format", "end_date", "end_time", "start_date", "start_time",
      "time_zone", "type"] := rfl

def membersOf (ts : List (String × Option String)) : List (String × Json) :=
  ts.flatMap fun t => member t.1 t.2

theorem toJson_eq (d : DateMention) : d.toJson = .object (membersOf d.texts) := by
  simp [toJson, membersOf, texts, member]

theorem keys_membersOf (ts : List (String × Option String)) :
    ((membersOf ts).map Prod.fst).Sublist (ts.map Prod.fst) := by
  induction ts with
  | nil => exact .refl _
  | cons t rest ih =>
    obtain ⟨name, o⟩ := t
    rw [membersOf, List.flatMap_cons]
    cases o with
    | none => exact ih.cons name
    | some s => exact ih.cons_cons name

theorem lookup_membersOf {ts : List (String × Option String)} (h : (ts.map Prod.fst).Nodup)
    (name : String) : (membersOf ts).lookup name = (ts.lookup name).bind (Option.map .string) := by
  induction ts with
  | nil => rfl
  | cons t rest ih =>
    obtain ⟨key, o⟩ := t
    obtain ⟨hkey, hrest⟩ := List.nodup_cons.mp h
    have hcons : membersOf ((key, o) :: rest) = member key o ++ membersOf rest := rfl
    rw [hcons, List.lookup_append, ih hrest, List.lookup_cons]
    by_cases hname : name = key
    · subst hname
      have hnone : rest.lookup name = none := by
        rw [List.lookup_eq_none_iff]
        intro e he
        rw [bne_iff_ne]
        rintro rfl
        exact hkey (List.mem_map.mpr ⟨e, he, rfl⟩)
      rw [hnone]
      cases o <;> simp [member]
    · have hmember : (member key o).lookup name = none := by
        cases o <;> simp [member, List.lookup_cons, beq_false_of_ne hname]
      rw [hmember, beq_false_of_ne hname]
      rfl

theorem optional?_string (o : Option String) :
    Json.optional? Json.string? (o.map .string) = some o := by
  cases o <;> rfl

/-- A date is read as it was written. -/
theorem ofJson?_toJson (d : DateMention) : ofJson? d.toJson = some d := by
  have hnodup : (d.texts.map Prod.fst).Nodup := by
    rw [names_texts]
    decide
  have hknown : (membersOf d.texts).filter (fun m => fieldNames.contains m.1) =
      membersOf d.texts := by
    have hnames : ∀ name ∈ d.texts.map Prod.fst, fieldNames.contains name = true := by
      rw [names_texts]
      decide
    refine List.filter_eq_self.mpr fun m hm => hnames m.1 ?_
    exact (keys_membersOf d.texts).subset (List.mem_map.mpr ⟨m, hm, rfl⟩)
  have hfields : d.toJson.fields? fieldNames = some (membersOf d.texts) := by
    rw [toJson_eq, Json.fields?, hknown, if_pos (hnodup.sublist (keys_membersOf d.texts))]
  -- what is not set is not written, and so is found to be absent
  have htext (name : String) : (membersOf d.texts).lookup name =
      (d.texts.lookup name).bind (Option.map .string) := lookup_membersOf hnodup name
  have hlookup : d.texts.lookup "type" = some d.kind ∧
      d.texts.lookup "start_date" = some (some d.startDate) ∧
      d.texts.lookup "start_time" = some d.startTime ∧
      d.texts.lookup "end_date" = some d.endDate ∧ d.texts.lookup "end_time" = some d.endTime ∧
      d.texts.lookup "date_format" = some d.dateFormat ∧
      d.texts.lookup "time_zone" = some d.timeZone := by
    refine ⟨?_, ?_, ?_, ?_, ?_, ?_, ?_⟩ <;> rfl
  rw [ofJson?, hfields]
  simp only [Option.bind_eq_bind, Option.bind_some, htext, hlookup, optional?_string]
  rfl

theorem fits_toJson (d : DateMention) : d.toJson.Fits 1 := by
  rw [toJson_eq]
  refine .object fun m hm => ?_
  obtain ⟨⟨name, o⟩, -, hmember⟩ := List.mem_flatMap.mp hm
  cases o with
  | none => cases hmember
  | some s =>
    obtain rfl := List.mem_singleton.mp hmember
    exact Json.fits_string 0 s

end DateMention

/-! ## Markers -/

namespace Style

/-- The codes of all markers but the unknown ones. -/
def knownCodes : List String := ["b", "i", "s", "_", "c", "a", "h", "u", "p", "d", "m"]

/-- A marker as it is read from what is written of it. -/
def reread : Style → Style
  | unknown c => ofCode c none
  | style => style

theorem ofJson_toJson (style : Style) : ofJson style.toJson = style.reread := by
  cases style with
  | date d =>
    have hdate : (DateMention.ofJson? d.toJson).getD {} = d := by
      rw [DateMention.ofJson?_toJson, Option.getD_some]
    exact congrArg date hdate
  | _ => rfl

theorem ofCode_eq_unknown_iff {c : String} : ofCode c none = unknown c ↔ c ∉ knownCodes := by
  unfold ofCode
  split <;> simp_all [knownCodes]

/-- No marker but an unknown one with a known code is read as another one. -/
theorem reread_eq_self_iff {style : Style} :
    style.reread = style ↔ ∀ c, style = unknown c → c ∉ knownCodes := by
  cases style with
  | unknown c => simp [reread, ofCode_eq_unknown_iff]
  | _ => simp [reread]

theorem reread_reread (style : Style) : style.reread.reread = style.reread := by
  have hknown : ∀ c ∈ knownCodes, (unknown c).reread.reread = (unknown c).reread := by
    decide
  cases style with
  | unknown c =>
    by_cases hc : c ∈ knownCodes
    · exact hknown c hc
    · rw [reread, ofCode_eq_unknown_iff.mpr hc, reread, ofCode_eq_unknown_iff.mpr hc]
  | _ => rfl

theorem fits_toJson (style : Style) : style.toJson.Fits 2 := by
  refine .array (List.forall_mem_cons.mpr ⟨Json.fits_string 1 _, ?_⟩)
  intro v hv
  cases style with
  | date d =>
    obtain rfl : v = d.toJson := by simpa [payload?] using hv
    exact d.fits_toJson
  | _ =>
    first
    | exact absurd hv List.not_mem_nil
    | obtain rfl := List.mem_singleton.mp hv
      exact Json.fits_string 1 _

end Style

/-! ## Runs -/

namespace TextRun

/-- A run as it is read from what is written of it. -/
def reread (r : TextRun) : TextRun :=
  { r with styles := r.styles.map Style.reread }

theorem ofJson?_toJson (r : TextRun) : ofJson? r.toJson = some r.reread := by
  obtain ⟨text, styles⟩ := r
  have hstyles (rest : List Style) : (rest.map Style.toJson).map Style.ofJson =
      rest.map Style.reread := by
    rw [List.map_map]
    exact List.map_congr_left fun style _ => style.ofJson_toJson
  cases styles with
  | nil => rfl
  | cons style rest =>
    have hread : ofJson? (toJson ⟨text, style :: rest⟩) =
        some ⟨text, ((style :: rest).map Style.toJson).map Style.ofJson⟩ := rfl
    rw [hread, hstyles]
    rfl

theorem listOfJson?_listToJson (rs : List TextRun) :
    listOfJson? (listToJson rs) = some (rs.map reread) := by
  change (rs.map toJson).mapM ofJson? = some (rs.map reread)
  induction rs with
  | nil => rfl
  | cons r rest ih =>
    rw [List.map_cons, List.mapM_cons, ofJson?_toJson, ih]
    rfl

theorem reread_eq_self_iff {r : TextRun} :
    r.reread = r ↔ ∀ c, .unknown c ∈ r.styles → c ∉ Style.knownCodes := by
  have hstyles : r.reread = r ↔ r.styles.map Style.reread = r.styles :=
    ⟨congrArg styles, fun h => congrArg (fun styles => { r with styles }) h⟩
  rw [hstyles, map_eq_self_iff]
  simp only [Style.reread_eq_self_iff]
  exact ⟨fun h c hc => h _ hc c rfl, fun h style hstyle c heq => h c (heq ▸ hstyle)⟩

theorem reread_reread (r : TextRun) : r.reread.reread = r.reread := by
  simp [reread, Style.reread_reread, Function.comp_def]

theorem map_reread_eq_self_iff {rs : List TextRun} :
    rs.map reread = rs ↔ ∀ r ∈ rs, ∀ c, .unknown c ∈ r.styles → c ∉ Style.knownCodes := by
  simp only [map_eq_self_iff, reread_eq_self_iff]

/-! ## Texts -/

theorem fits_toJson (r : TextRun) : r.toJson.Fits 4 := by
  obtain ⟨text, styles⟩ := r
  have htext : (Json.string text).Fits 3 := Json.fits_string 3 text
  cases styles with
  | nil => exact .array (by simpa using htext)
  | cons style rest =>
    have hstyles : (Json.array ((style :: rest).map Style.toJson)).Fits 3 := by
      refine .array fun v hv => ?_
      obtain ⟨style, -, rfl⟩ := List.mem_map.mp hv
      exact style.fits_toJson
    exact .array (by simpa using ⟨htext, hstyles⟩)

theorem fits_listToJson (rs : List TextRun) : (listToJson rs).Fits 5 := by
  refine .array fun v hv => ?_
  obtain ⟨r, -, rfl⟩ := List.mem_map.mp hv
  exact r.fits_toJson

/-- Runs are read from the text that is written of them. They are the same runs exactly when no
unknown marker has the code of a known one, and when they are written again, the same runs are
read. -/
theorem written_runs_are_reread (rs : List TextRun) :
    Json.ofText? (listToJson rs).compact = some (listToJson rs) ∧
      ∃ rs', listOfJson? (listToJson rs) = some rs' ∧
        (rs' = rs ↔ ∀ r ∈ rs, ∀ c, .unknown c ∈ r.styles → c ∉ Style.knownCodes) ∧
        listOfJson? (listToJson rs') = some rs' := by
  refine ⟨(fits_listToJson rs).ofText?_compact (by decide), rs.map reread,
    listOfJson?_listToJson rs, map_reread_eq_self_iff, ?_⟩
  rw [listOfJson?_listToJson, List.map_map]
  exact congrArg some (List.map_congr_left fun r _ => r.reread_reread)

/-- A bare string is read as an unknown marker, whatever it spells, and it comes back as a known
one. -/
example : let run : TextRun := { text := "x", styles := [.unknown "b"] }
    ofJson? (.array [.string "x", .array [.string "b"]]) = some run ∧
      ofJson? run.toJson = some { text := "x", styles := [.bold] } := by
  constructor <;> rfl

end TextRun
end Folio
