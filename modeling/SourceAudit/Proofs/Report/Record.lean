import SourceAudit.Proofs.Json.Read
import SourceAudit.Report.Record

/-!
Reports and their records. Reading a record gives the report back, but for a score that is not finite
(`ofJson?_toRecord`). A record can be written and read again if the numbers of the report are words
and its score reads back, and it nests at most four levels (`storable_toRecord`).
-/

namespace SourceAudit

open SourceAudit.Audit (Issue IssueKind LineSpan Location Metrics Sector)
open SourceAudit.Syntax (SyntaxError)
open SourceAudit.Number (Binary64)

namespace Json

/-! ### Fields of records -/

@[simp]
theorem sortedFields_append (as bs done : List (String × Json)) :
    sortedFields (as ++ bs) done = sortedFields bs (sortedFields as done) := by
  induction as generalizing done with
  | nil => rfl
  | cons f as ih =>
    obtain ⟨n, v⟩ := f
    rw [List.cons_append, sortedFields, sortedFields, ih]

@[simp]
theorem field?_sortedFields_optionalField {α : Type} (name other : String) (write : α → Json)
    (o : Option α) (done : List (String × Json)) :
    field? (sortedFields (optionalField name write o) done) other =
      if name = other then (o.map fun a => (write a).sorted).or (field? done other)
      else field? done other := by
  cases o with
  | none => simp [optionalField, sortedFields]
  | some a => simp [optionalField, sortedFields]

@[simp]
theorem field?_nil (name : String) : field? [] name = none := rfl

@[simp]
theorem members?_sorted (arity : Nat) (fs : List (String × Json)) :
    members? arity (sorted (.obj fs)) = some (.named (sortedFields fs [])) := by
  rw [sorted, members?]

@[simp]
theorem required_named {α : Type} (fs : List (String × Json)) (place : Nat) (name : String)
    (read : Json → Option α) :
    (Members.named fs).required place name read = (field? fs name).bind read := rfl

/-- Reads what may be left out or null. -/
def readOptional {α : Type} (read : Json → Option α) : Option Json → Option (Option α)
  | none => some none
  | some .null => some none
  | some j => (read j).map some

@[simp]
theorem optional_named {α : Type} (fs : List (String × Json)) (place : Nat) (name : String)
    (read : Json → Option α) :
    (Members.named fs).optional place name read = readOptional read (field? fs name) := rfl

theorem readOptional_map {α : Type} {write : α → Json} {read : Json → Option α}
    (h : ∀ a, read (write a).sorted = some a) (hn : ∀ a, (write a).sorted ≠ .null)
    (o : Option α) : readOptional read (o.map fun a => (write a).sorted) = some o := by
  cases o with
  | none => rfl
  | some a =>
    have hread : ∀ j : Json, j ≠ .null → readOptional read (some j) = (read j).map some := by
      intro j hj
      cases j <;> first | rfl | exact absurd rfl hj
    rw [Option.map_some, hread _ (hn a), h a]
    rfl

@[simp]
theorem withDefault_named {α : Type} (fs : List (String × Json)) (place : Nat) (name : String)
    (default : α) (read : Json → Option α) :
    (Members.named fs).withDefault place name default read =
      match field? fs name with
      | none => some default
      | some j => read j := rfl

@[simp]
theorem nat?_nat (n : Nat) : nat? (nat n) = some n := by simp [nat?, nat]

@[simp]
theorem sorted_nat (n : Nat) : (nat n).sorted = nat n := rfl

@[simp]
theorem sorted_str (s : String) : (str s).sorted = str s := rfl

@[simp]
theorem string?_str (s : String) : string? (str s) = some s := rfl

@[simp]
theorem readOptional_str (o : Option String) : readOptional string? (o.map str) = some o := by
  cases o <;> rfl

@[simp]
theorem readOptional_nat (o : Option Nat) : readOptional nat? (o.map nat) = some o := by
  cases o with
  | none => rfl
  | some n => exact congrArg (Option.map some) (nat?_nat n)

/-- A list is read back if its elements are. -/
theorem list?_sorted {α : Type} {write : α → Json} {read : Json → Option α}
    (h : ∀ a, read (write a).sorted = some a) (as : List α) :
    list? read (sorted (.arr (as.map write))) = some as := by
  rw [sorted, list?, sortedList_eq_map]
  induction as with
  | nil => rfl
  | cons a as ih => simp_all

end Json

/-! ### Reading a record -/

theorem Syntax.SyntaxError.ofJson?_toJson (e : SyntaxError) :
    SyntaxError.ofJson? e.toJson.sorted = some e := by
  simp [SyntaxError.ofJson?, SyntaxError.toJson, Json.sortedFields]

namespace Audit

theorem Location.ofJson?_toJson (l : Location) : Location.ofJson? l.toJson.sorted = some l := by
  simp [Location.ofJson?, Location.toJson, Json.sortedFields]

theorem LineSpan.ofJson?_toJson (s : LineSpan) : LineSpan.ofJson? s.toJson.sorted = some s := by
  simp [LineSpan.ofJson?, LineSpan.toJson, Json.sortedFields]

theorem IssueKind.ofLabel?_label (k : IssueKind) : IssueKind.ofLabel? k.label = some k := by
  cases k <;> rfl

theorem Sector.ofLabel?_label (s : Sector) : Sector.ofLabel? s.label = some s := by
  cases s <;> rfl

theorem Issue.ofJson?_toJson (i : Issue) : Issue.ofJson? i.toJson.sorted = some i := by
  have hlocation := Json.readOptional_map Location.ofJson?_toJson fun _ => nofun
  have hspan := Json.readOptional_map LineSpan.ofJson?_toJson fun _ => nofun
  simp [Issue.ofJson?, Issue.toJson, Json.sortedFields, Json.label?, IssueKind.ofLabel?_label,
    hlocation, hspan]

/-- The numbers as they come out of the store: a score that is not finite is lost. -/
def Metrics.asStored (m : Metrics) : Metrics :=
  { m with qualityScore := m.qualityScore.filter Binary64.isFinite }

theorem Metrics.ofJson?_toJson (m : Metrics) :
    Metrics.ofJson? m.toJson.sorted = some m.asStored := by
  have hscore : Json.readOptional Json.double?
      (m.qualityScore.map fun x => (Json.ofDouble x).sorted) =
        some (m.qualityScore.filter Binary64.isFinite) := by
    cases m.qualityScore with
    | none => rfl
    | some x =>
      cases h : x.isFinite <;>
        simp [Json.ofDouble, h, Json.readOptional, Json.double?, Json.sorted, Option.filter]
  simp [Metrics.ofJson?, Metrics.toJson, Metrics.asStored, Json.sortedFields, hscore]

end Audit

theorem Linter.Message.ofJson?_toJson (m : Linter.Message) :
    Linter.Message.ofJson? m.toJson.sorted = some m := by
  have hplace (o : Option Nat) :
      Json.readOptional Json.nat? (some (Json.ofOption Json.nat o).sorted) = some o := by
    cases o with
    | none => rfl
    | some n => exact congrArg (Option.map some) (Json.nat?_nat n)
  simp [Linter.Message.ofJson?, Linter.Message.toJson, Json.sortedFields, hplace]

namespace Report

/-- The report as it comes out of the store. -/
def asStored (r : Report) : Report := { r with metrics := r.metrics.asStored }

/-- Reading a record gives its report back. -/
theorem ofJson?_toRecord (r : Report) : Report.ofJson? r.toRecord = some r.asStored := by
  have herror : Json.readOptional SyntaxError.ofJson?
      (some (Json.ofOption SyntaxError.toJson r.syntaxError).sorted) = some r.syntaxError := by
    cases r.syntaxError with
    | none => rfl
    | some e => exact Json.readOptional_map SyntaxError.ofJson?_toJson (fun _ => nofun) (some e)
  have hissues := Json.list?_sorted Issue.ofJson?_toJson r.issues
  have hlinter := Json.list?_sorted Linter.Message.ofJson?_toJson r.externalIssues
  by_cases he : r.externalIssues = []
  · simp [Report.ofJson?, toRecord, toJson, Json.sortedFields, Json.label?, he,
      Sector.ofLabel?_label, herror, hissues, Metrics.ofJson?_toJson, asStored]
  · simp [Report.ofJson?, toRecord, toJson, Json.sortedFields, Json.label?, he,
      Sector.ofLabel?_label, herror, hissues, hlinter, Metrics.ofJson?_toJson, asStored]

end Report

/-! ### Records that can be stored -/

namespace Json

/-- The scalars of a value have a property, and it nests at most `k` levels. -/
structure Shaped (P : Json → Prop) (k : Nat) (j : Json) : Prop where
  scalars : ∀ s ∈ j.scalars, P s
  depth_le : j.depth ≤ k

/-- A property that null, all strings and all words have. -/
structure Admits (P : Json → Prop) : Prop where
  null : P .null
  str : ∀ s, P (.str s)
  nat : ∀ n, n < wordLimit → P (.nat n)

theorem fitsWord_nat {n : Nat} (h : n < wordLimit) : FitsWord n := by
  simp only [FitsWord]
  omega

theorem admits_faithful : Admits Faithful := ⟨trivial, fun _ => trivial, fun _ => fitsWord_nat⟩

/-- A scalar that is no number, or one that JSON has. -/
def IsJsonScalar : Json → Prop
  | .int n => FitsWord n
  | .double x => x.isFinite = true
  | _ => True

theorem admits_isJsonScalar : Admits IsJsonScalar :=
  ⟨trivial, fun _ => trivial, fun _ => fitsWord_nat⟩

variable {P : Json → Prop} {k : Nat}

theorem shaped_null (hP : Admits P) : Shaped P k .null :=
  ⟨by simpa [scalars] using hP.null, Nat.zero_le k⟩

theorem shaped_str (hP : Admits P) (s : String) : Shaped P k (str s) :=
  ⟨by simpa [scalars] using hP.str s, Nat.zero_le k⟩

theorem shaped_nat (hP : Admits P) {n : Nat} (h : n < Json.wordLimit) : Shaped P k (nat n) :=
  ⟨by simpa [scalars, nat] using hP.nat n h, Nat.zero_le k⟩

theorem shaped_ofDouble (hP : Admits P) {x : Binary64} (h : x.isFinite → P (.double x)) :
    Shaped P k (ofDouble x) := by
  unfold ofDouble
  split
  · rename_i hx
    exact ⟨by simpa [scalars] using h hx, Nat.zero_le k⟩
  · exact shaped_null hP

theorem shaped_arr {xs : List Json} (h : ∀ x ∈ xs, Shaped P k x) : Shaped P (k + 1) (arr xs) := by
  refine ⟨?_, depth_arr_le.mpr fun x hx => (h x hx).depth_le⟩
  intro s hs
  obtain ⟨x, hx, hs⟩ := mem_scalarsList.mp hs
  exact (h x hx).scalars s hs

theorem shaped_obj {fs : List (String × Json)} (h : ∀ f ∈ fs, Shaped P k f.2) :
    Shaped P (k + 1) (obj fs) := by
  refine ⟨?_, depth_obj_le.mpr fun f hf => (h f hf).depth_le⟩
  intro s hs
  obtain ⟨f, hf, hs⟩ := mem_scalarsFields.mp hs
  exact (h f hf).scalars s hs

theorem shaped_ofOption (hP : Admits P) {α : Type} {write : α → Json} {o : Option α}
    (h : ∀ a ∈ o, Shaped P k (write a)) : Shaped P k (ofOption write o) := by
  cases o with
  | none => exact shaped_null hP
  | some a => exact h a rfl

theorem shaped_optionalField {α : Type} {name : String} {write : α → Json} {o : Option α}
    (h : ∀ a ∈ o, Shaped P k (write a)) : ∀ f ∈ optionalField name write o, Shaped P k f.2 := by
  cases o with
  | none => simp [optionalField]
  | some a => simpa [optionalField] using h a rfl

theorem Shaped.sorted {j : Json} (h : Shaped P k j) : Shaped P k j.sorted :=
  ⟨fun s hs => h.scalars s (scalars_sorted_subset j hs),
    Nat.le_trans (depth_sorted_le j) h.depth_le⟩

theorem Shaped.hasJsonNumbers {j : Json} (h : Shaped IsJsonScalar k j) : j.HasJsonNumbers :=
  ⟨fun n hn => h.scalars (.int n) hn, fun x hx => h.scalars (.double x) hx⟩

end Json

open Json (Admits Shaped)

variable {P : Json → Prop} {k : Nat}

/-- The numbers in a syntax error. -/
def Syntax.SyntaxError.numbers (e : SyntaxError) : List Nat := [e.line, e.column]

theorem Syntax.SyntaxError.shaped_toJson (hP : Admits P) {e : SyntaxError}
    (h : ∀ n ∈ e.numbers, n < Json.wordLimit) : Shaped P (k + 1) e.toJson := by
  simp only [numbers, List.forall_mem_cons] at h
  apply Json.shaped_obj
  simp [Json.shaped_nat hP h.1, Json.shaped_nat hP h.2.1, Json.shaped_str hP]

namespace Audit

def Location.numbers (l : Location) : List Nat := [l.line, l.column]

def LineSpan.numbers (s : LineSpan) : List Nat := [s.startLine, s.endLine, s.length]

def Issue.numbers (i : Issue) : List Nat :=
  i.location.toList.flatMap Location.numbers ++ i.span.toList.flatMap LineSpan.numbers ++
    i.count.toList

def Metrics.numbers (m : Metrics) : List Nat := [m.linesOfCode, m.todoCount, m.issueCount]

theorem Location.shaped_toJson (hP : Admits P) {l : Location}
    (h : ∀ n ∈ l.numbers, n < Json.wordLimit) : Shaped P (k + 1) l.toJson := by
  simp only [numbers, List.forall_mem_cons] at h
  apply Json.shaped_obj
  simp [Json.shaped_nat hP h.1, Json.shaped_nat hP h.2.1]

theorem LineSpan.shaped_toJson (hP : Admits P) {s : LineSpan}
    (h : ∀ n ∈ s.numbers, n < Json.wordLimit) : Shaped P (k + 1) s.toJson := by
  simp only [numbers, List.forall_mem_cons] at h
  apply Json.shaped_obj
  simp [Json.shaped_nat hP h.1, Json.shaped_nat hP h.2.1, Json.shaped_nat hP h.2.2.1]

theorem Issue.shaped_toJson (hP : Admits P) {i : Issue} (h : ∀ n ∈ i.numbers, n < Json.wordLimit) :
    Shaped P (k + 2) i.toJson := by
  simp only [numbers, List.forall_mem_append, List.forall_mem_flatMap, Option.mem_toList] at h
  obtain ⟨⟨hlocation, hspan⟩, hcount⟩ := h
  apply Json.shaped_obj
  simp only [List.forall_mem_append, and_assoc]
  refine ⟨?_, ?_, ?_, ?_, ?_⟩
  · simp [Json.shaped_str hP]
  · exact Json.shaped_optionalField fun l hl => Location.shaped_toJson hP (hlocation l hl)
  · exact Json.shaped_optionalField fun s _ => Json.shaped_str hP s
  · exact Json.shaped_optionalField fun s hs => LineSpan.shaped_toJson hP (hspan s hs)
  · exact Json.shaped_optionalField fun n hn => Json.shaped_nat hP (hcount n hn)

theorem Metrics.shaped_toJson (hP : Admits P) {m : Metrics}
    (h : ∀ n ∈ m.numbers, n < Json.wordLimit)
    (hs : ∀ x ∈ m.qualityScore, x.isFinite → P (.double x)) : Shaped P (k + 1) m.toJson := by
  simp only [numbers, List.forall_mem_cons] at h
  apply Json.shaped_obj
  simp only [List.forall_mem_append]
  refine ⟨?_, Json.shaped_optionalField fun x hx => Json.shaped_ofDouble hP (hs x hx)⟩
  simp [Json.shaped_nat hP h.1, Json.shaped_nat hP h.2.1, Json.shaped_nat hP h.2.2.1]

end Audit

def Linter.Message.numbers (m : Linter.Message) : List Nat := m.line.toList ++ m.column.toList

theorem Linter.Message.shaped_toJson (hP : Admits P) {m : Linter.Message}
    (h : ∀ n ∈ m.numbers, n < Json.wordLimit) : Shaped P (k + 1) m.toJson := by
  simp only [numbers, List.forall_mem_append, Option.mem_toList] at h
  have hline := Json.shaped_ofOption (k := k) hP fun n hn => Json.shaped_nat hP (h.1 n hn)
  have hcolumn := Json.shaped_ofOption (k := k) hP fun n hn => Json.shaped_nat hP (h.2 n hn)
  apply Json.shaped_obj
  simp [hline, hcolumn, Json.shaped_str hP]

namespace Report

/-- All lines, columns and counts in a report. -/
def numbers (r : Report) : List Nat :=
  r.syntaxError.toList.flatMap SyntaxError.numbers ++ r.issues.flatMap Issue.numbers ++
    r.metrics.numbers ++ r.externalIssues.flatMap Linter.Message.numbers

/-- The numbers of the report are words of 64 bits, and its score, if finite, reads back from its
text. -/
structure Storable (r : Report) : Prop where
  words : ∀ n ∈ r.numbers, n < Json.wordLimit
  score : ∀ x ∈ r.metrics.qualityScore, x.isFinite → Json.ReadsBack x

/-- The scalars of a report are null, strings, words and its score. -/
theorem shaped_toJson (hP : Admits P) {r : Report} (hwords : ∀ n ∈ r.numbers, n < Json.wordLimit)
    (hscore : ∀ x ∈ r.metrics.qualityScore, x.isFinite → P (.double x)) : Shaped P 4 r.toJson := by
  simp only [numbers, List.forall_mem_append, List.forall_mem_flatMap, Option.mem_toList] at hwords
  obtain ⟨⟨⟨herror, hissues⟩, hmetrics⟩, hlinter⟩ := hwords
  have hissueList : Shaped P 3 (.arr (r.issues.map Issue.toJson)) := by
    apply Json.shaped_arr
    simpa using fun i hi => Issue.shaped_toJson hP (hissues i hi)
  have hlinterList : Shaped P 3 (.arr (r.externalIssues.map Linter.Message.toJson)) := by
    apply Json.shaped_arr
    simpa using fun m hm => Linter.Message.shaped_toJson hP (hlinter m hm)
  apply Json.shaped_obj
  simp only [List.forall_mem_append, and_assoc]
  refine ⟨?_, Json.shaped_optionalField fun s _ => Json.shaped_str hP s, ?_⟩
  · simp only [List.forall_mem_cons, Json.shaped_str hP, true_and]
    exact ⟨Json.shaped_ofOption hP fun e he => SyntaxError.shaped_toJson hP (herror e he),
      hissueList, Metrics.shaped_toJson hP hmetrics hscore, by simp⟩
  · split
    · simp
    · simpa using hlinterList

/-- The record of a report whose score reads back can be written and read again. -/
theorem storable_toRecord {r : Report} (h : r.Storable) : Shaped Json.Faithful 4 r.toRecord :=
  (shaped_toJson Json.admits_faithful h.words h.score).sorted

/-- The numbers of a report, be it printed or stored, are those that JSON has. -/
theorem isJson_toJson {r : Report} (h : ∀ n ∈ r.numbers, n < Json.wordLimit) :
    Shaped Json.IsJsonScalar 4 r.toJson :=
  shaped_toJson Json.admits_isJsonScalar h fun _ _ hx => hx

end Report
end SourceAudit
