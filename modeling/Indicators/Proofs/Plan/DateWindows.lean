import Indicators.Proofs.Calendar.Order
import Indicators.Proofs.Calendar.Reading
import Indicators.Proofs.Metric.Acceptance
import Indicators.Proofs.Plan.Rows

set_option autoImplicit false

/-! A range between bare dates ends with the last whole millisecond of its last day. What comes
after that on the day is dropped: the rest of its second, and a leap second. -/

namespace Indicators.Plan

open Indicators Indicators.Calendar Indicators.Metric Indicators.Pipeline Indicators.Schema
open Indicators.Text

theorem reads_bareDates {r : DraftRange} {d e : Date} (hfirst : BareDate r.first d)
    (hlast : BareDate r.last e) (hle : d.NoLater e) (hpath : ∃ s ∈ r.pathSegments, ¬ Blank s) :
    ∃ range, r.Reads range ∧ range.first = d.dayStart ∧ range.last = e.dayEnd := by
  have hbounds := dayStart_le_dayEnd ((dayNumber_le_iff hfirst.valid hlast.valid).2 hle)
  obtain ⟨range, hreads⟩ := r.exists_reads.2
    ⟨hpath, d.dayStart, e.dayEnd, hfirst.read? false, hlast.read? true, hbounds⟩
  refine ⟨range, hreads, ?_, ?_⟩
  · exact Option.some.inj (hreads.first.symm.trans (hfirst.read? false))
  · exact Option.some.inj (hreads.last.symm.trans (hlast.read? true))

/-- Of a document with a written moment the filter asks whether the moment lies on the days. -/
theorem mem_run_dateStage {range : DateRange} {d e : Date} (hfirst : range.first = d.dayStart)
    (hlast : range.last = e.dayEnd) (collection : String → List Json) (locator : DateLocator)
    (types : FieldTypes) (sectionPath : List String) {docs : List Json} {doc : Json}
    (hdoc : doc ∈ docs) {w : WallClock}
    (hstored : valueAt (locateDateField locator types sectionPath range.pathSegments) doc =
      .string (String.ofList w.text)) :
    doc ∈ run collection docs [dateStage locator types sectionPath range] ↔
      OnDays d e w.moment := by
  have hread : storedTimestamp (.string (String.ofList w.text)) = some w.moment :=
    w.read?_text false
  have hkept : inRange locator types sectionPath range doc =
      (d.dayStart.le w.moment && w.moment.le e.dayEnd) := by
    unfold inRange
    rw [candidates_of_valueAt hstored nofun nofun, List.any_cons, List.any_nil, Bool.or_false,
      hread, Option.any_some, hfirst, hlast]
  rw [run_dateStage, List.mem_filter, hkept, between_iff]
  exact and_iff_right hdoc

/-- A range between bare dates is accepted. Of the documents with a written moment, reached through
objects, it keeps those whose moment lies on its days. -/
theorem keeps_days {r : DraftRange} {d e : Date} (hfirst : BareDate r.first d)
    (hlast : BareDate r.last e) (hle : d.NoLater e) (hpath : ∃ s ∈ r.pathSegments, ¬ Blank s) :
    ∃ range, r.check = .ok range ∧
      ∀ (collection : String → List Json) (locator : DateLocator) (types : FieldTypes)
        (sectionPath : List String) (docs : List Json), ∀ doc ∈ docs, ∀ w : WallClock,
        valueAt (locateDateField locator types sectionPath range.pathSegments) doc =
            .string (String.ofList w.text) →
          (doc ∈ run collection docs [dateStage locator types sectionPath range] ↔
            OnDays d e w.moment) := by
  obtain ⟨range, hreads, hstart, hend⟩ := reads_bareDates hfirst hlast hle hpath
  refine ⟨range, DraftRange.check_ok.2 hreads, ?_⟩
  intro collection locator types sectionPath docs doc hdoc w hstored
  exact mem_run_dateStage hstart hend collection locator types sectionPath hdoc hstored

def enrolledWindow : DraftRange := ⟨["General", "Enrolled"], "2024-01-01", "2024-06-30"⟩

def enrolled (w : WallClock) : Json :=
  .object [("General", .object [("Enrolled", .string (String.ofList w.text))])]

def nightClock : WallClock where
  date := ⟨2024, 7, 1⟩
  valid := by decide
  years := by decide
  separator := 'T'
  separates := .inl rfl
  hour := 1
  minute := 59
  second := 59
  onClock := by decide
  fraction := ['9', '9', '9']
  digits := by decide
  zone := .ahead 2 0 (by decide)

def lateClock : WallClock where
  date := ⟨2024, 6, 30⟩
  valid := by decide
  years := by decide
  separator := 'T'
  separates := .inl rfl
  hour := 23
  minute := 59
  second := 59
  onClock := by decide
  fraction := ['9', '9', '9', '5']
  digits := by decide
  zone := .utc 'Z' (.inl rfl)

theorem bareDate_newYear : BareDate enrolledWindow.first ⟨2024, 1, 1⟩ :=
  ⟨by decide, by decide⟩

theorem bareDate_june : BareDate enrolledWindow.last ⟨2024, 6, 30⟩ :=
  ⟨by decide, by decide⟩

theorem enrolledWindow_path : ∃ s ∈ enrolledWindow.pathSegments, ¬ Blank s :=
  ⟨"General", List.mem_cons_self, fun h => absurd (h 'G' (by decide)) (by decide)⟩

theorem stored_enrolled {range : DateRange} (h : enrolledWindow.Reads range) (w : WallClock) :
    valueAt (locateDateField .sectionRelative {} [] range.pathSegments) (enrolled w) =
      .string (String.ofList w.text) := by
  have hpath : range.pathSegments = ["General", "Enrolled"] := h.path.trans (by decide)
  have hsegments : segments (locateDateField .sectionRelative {} [] ["General", "Enrolled"]) =
      ["General", "Enrolled"] := by decide
  unfold valueAt
  rw [hpath, hsegments]
  rfl

theorem keeps_days_night :
    BareDate enrolledWindow.first ⟨2024, 1, 1⟩ ∧ BareDate enrolledWindow.last ⟨2024, 6, 30⟩ ∧
      (∃ s ∈ enrolledWindow.pathSegments, ¬ Blank s) ∧
      ∃ range, enrolledWindow.check = .ok range ∧
        enrolled nightClock ∈ run (fun _ => []) [enrolled nightClock]
          [dateStage .sectionRelative {} [] range] := by
  obtain ⟨range, hcheck, hkeeps⟩ :=
    keeps_days bareDate_newYear bareDate_june (by decide) enrolledWindow_path
  have hstored := stored_enrolled (DraftRange.check_ok.1 hcheck) nightClock
  have hkept := hkeeps (fun _ => []) _ _ _ _ _ (List.mem_singleton.2 rfl) nightClock hstored
  exact ⟨bareDate_newYear, bareDate_june, enrolledWindow_path, range, hcheck,
    hkept.2 (by decide)⟩

/-- The second half of the last millisecond is on the last day, and not in the window. -/
theorem last_millisecond_cut :
    lateClock.moment.dayNumber = (Date.mk 2024 6 30).dayNumber ∧
      ∃ range, enrolledWindow.check = .ok range ∧
        enrolled lateClock ∉ run (fun _ => []) [enrolled lateClock]
          [dateStage .sectionRelative {} [] range] := by
  obtain ⟨range, hreads, hfirst, hlast⟩ :=
    reads_bareDates bareDate_newYear bareDate_june (by decide) enrolledWindow_path
  have hstored := stored_enrolled hreads lateClock
  have hkept :=
    mem_run_dateStage hfirst hlast (fun _ => []) _ _ _ (List.mem_singleton.2 rfl) hstored
  refine ⟨by decide, range, DraftRange.check_ok.2 hreads, ?_⟩
  rw [hkept]
  decide

end Indicators.Plan
