import Mathlib.Data.List.Basic
import TableExport.Proofs.Export.Surveys

/-!
# Runs over the same data

Whatever a storage answers, two runs with the same options go through the same parts until it
answers them differently. A storage that is asked the same again gives the same answers. So the
parts of two runs differ nowhere up to where one of them breaks, and there is one survey only.
-/
namespace TableExport

/-! ## Parts that go in parallel -/

/-- The same part of two runs: the same question, or an artifact of the same name that is made of
the answers to the same questions. -/
inductive Part.Twin : Part → Part → Prop
  | asking {call : Call} (a b : call.Answer) : Twin (.asking ⟨call, a⟩) (.asking ⟨call, b⟩)
  | storing {name : String} {contentType : ContentType} {items others : List Item}
    (forked : Forked (Item.exchanges items) (Item.exchanges others))
    (made : Item.exchanges items = Item.exchanges others → items = others) :
    Twin (.storing name contentType items) (.storing name contentType others)

namespace Part.Twin
variable {p q : Part}

theorem refl (part : Part) : Twin part part := by
  cases part with
  | asking exchange => exact .asking exchange.answer exchange.answer
  | storing name contentType items => exact .storing (.refl _) fun _ => rfl

theorem forked (twin : Twin p q) : Forked p.exchanges q.exchanges := by
  cases twin with
  | asking a b => exact .cons rfl fun _ => .nil
  | storing forked made => exact forked

theorem eq_of_gives {storage : Storage} {history : List Call} (twin : Twin p q)
    (given : storage.Gives history p.exchanges) (again : storage.Gives history q.exchanges) :
    p = q := by
  have same := twin.forked.eq_of_gives given again
  cases twin with
  | asking a b =>
    rw [Exchange.answer_injective (List.cons.inj same).1]
  | storing forked made => rw [made same]

end Part.Twin

/-- The parts of two runs that ask the same as long as they get the same answers. -/
def Part.Parallel (ps qs : List Part) : Prop := Lockstep Twin ps qs

namespace Part.Parallel
variable {storage : Storage} {history : List Call} {ps qs : List Part}

theorem refl (parts : List Part) : Parallel parts parts := Lockstep.refl Twin.refl parts

theorem eq_of_gives (parallel : Parallel ps qs)
    (given : storage.Gives history (ps.flatMap exchanges))
    (again : storage.Gives history (qs.flatMap exchanges)) : ps = qs :=
  Lockstep.eq_of_gives exchanges Twin.eq_of_gives parallel given again

/-- What one of them has passed the other one has too, and there they come to the same part. -/
theorem meets {done later : List Part} {part : Part} (parallel : Parallel ps (done ++ part :: later))
    (given : storage.Gives history (ps.flatMap exchanges))
    (again : storage.Gives history (done.flatMap exchanges)) :
    ∃ other rest, ps = done ++ other :: rest ∧ Twin other part :=
  Lockstep.meets exchanges Twin.eq_of_gives parallel given again

end Part.Parallel

/-! ## Surveys -/

namespace TableData
variable {options : ExportOptions}

theorem part_twin {data other : TableData} (same : data.table = other.table) :
    Part.Twin (data.part options) (other.part options) := by
  obtain ⟨table, columns, rows⟩ := data
  obtain ⟨_, columns', rows'⟩ := other
  cases same
  refine .storing ?_ fun asked => ?_
  · simp only [Item.exchanges_table, tableExchanges]
    refine .cons rfl fun columns => ?_
    cases columns
    exact .cons rfl fun _ => .nil
  · simp only [Item.exchanges_table, tableExchanges] at asked
    cases asked
    rfl

theorem part_injective : Function.Injective (part options) := by
  rintro ⟨table, columns, rows⟩ ⟨table', columns', rows'⟩ same
  have asked := congrArg Part.exchanges same
  simp only [exchanges_part, exchanges, tableExchanges] at asked
  cases asked
  rfl

theorem parts_parallel {tables others : List TableData}
    (named : tables.map table = others.map table) :
    Part.Parallel (tables.map (part options)) (others.map (part options)) := by
  induction tables generalizing others with
  | nil =>
    obtain rfl := List.map_eq_nil_iff.mp named.symm
    exact .nil
  | cons data tables ih =>
    cases others with
    | nil => cases named
    | cons other others =>
      obtain ⟨here, rest⟩ := List.cons.inj named
      exact .cons (part_twin here) fun _ => ih rest

end TableData

theorem counts_forked {counts others : List (TableName × Int)}
    (named : counts.map Prod.fst = others.map Prod.fst) :
    Forked (countExchanges counts) (countExchanges others) := by
  induction counts generalizing others with
  | nil =>
    obtain rfl := List.map_eq_nil_iff.mp named.symm
    exact .nil
  | cons entry counts ih =>
    cases others with
    | nil => cases named
    | cons other others =>
      obtain ⟨name, count⟩ := entry
      obtain ⟨name', count'⟩ := other
      obtain ⟨here, rest⟩ := List.cons.inj named
      cases here
      exact .cons rfl fun _ => ih rest

theorem countExchanges_injective : Function.Injective countExchanges := by
  apply List.map_injective_iff.mpr
  rintro ⟨name, count⟩ ⟨name', count'⟩ same
  cases same
  rfl

namespace Survey
variable {options : ExportOptions} {s t : Survey}

theorem counts_parallel (named : options.metadata = true → s.counts.map Prod.fst = t.counts.map Prod.fst) :
    Part.Parallel
      (if options.metadata then [.storing metadataArtifact .csv (metadataItems s.counts)] else [])
      (if options.metadata then [.storing metadataArtifact .csv (metadataItems t.counts)] else []) := by
  cases selected : options.metadata with
  | false => exact .nil
  | true =>
    refine .cons (.storing ?_ fun asked => ?_) fun _ => .nil
    · simpa only [Item.exchanges_metadata] using counts_forked (named selected)
    · simp only [Item.exchanges_metadata] at asked
      rw [countExchanges_injective asked]

theorem rules_parallel (options : ExportOptions) (s t : Survey) :
    Part.Parallel
      (if options.disabledRules then [.storing disabledRulesArtifact .csv (ruleItems s.rules)] else [])
      (if options.disabledRules then [.storing disabledRulesArtifact .csv (ruleItems t.rules)] else []) := by
  cases options.disabledRules with
  | false => exact .nil
  | true =>
    refine .cons (.storing ?_ fun asked => ?_) fun _ => .nil
    · simp only [Item.exchanges_rules, ruleExchanges]
      exact .cons rfl fun _ => .nil
    · simp only [Item.exchanges_rules, ruleExchanges] at asked
      rw [Exchange.answer_injective (List.cons.inj asked).1]

/-- Two runs with the same options go in parallel, whatever their storages answer. -/
theorem run_parallel (counted : options.metadata = true → s.counts.map Prod.fst = s.names)
    (counted' : options.metadata = true → t.counts.map Prod.fst = t.names) (log : List Artifact) :
    Part.Parallel (s.run options log) (t.run options log) := by
  simp only [run, parts, List.cons_append, List.append_assoc]
  -- once the tables are listed alike, what is asked next depends on the answers to that only
  refine .cons (@Part.Twin.asking .listTables s.names t.names) fun listed => ?_
  have names : s.names = t.names := Exchange.answer_injective (Part.asking.inj listed)
  rw [names]
  refine .cons (.refl _) fun _ => (TableData.parts_parallel names).append fun _ => ?_
  refine (counts_parallel fun selected => ?_).append fun _ => ?_
  · rw [counted selected, counted' selected, names]
  · exact (rules_parallel options s t).append fun _ => Part.Parallel.refl _

/-! ## The survey of a storage -/

theorem tables_injective (same : s.run options [] = t.run options []) : s.tables = t.tables := by
  simp only [run, parts, List.cons_append, List.append_assoc] at same
  obtain ⟨listing, rest⟩ := List.cons.inj same
  have names : s.names = t.names := Exchange.answer_injective (Part.asking.inj listing)
  have length : s.tables.length = t.tables.length := by
    simpa [Survey.names] using congrArg List.length names
  -- there is one part for each listed table, and the others follow
  obtain ⟨parts, -⟩ := List.append_inj (List.cons.inj rest).2 (by simpa using length)
  exact List.map_injective_iff.mpr TableData.part_injective parts

variable {storage : Storage} {history : List Call}

theorem TakenFrom.run_eq (first : s.TakenFrom storage history options)
    (second : t.TakenFrom storage history options) (log : List Artifact) :
    s.run options log = t.run options log := by
  apply (run_parallel first.counted second.counted log).eq_of_gives
  · rw [exchanges_run]
    exact first.gives
  · rw [exchanges_run]
    exact second.gives

/-- A storage has one survey only, as far as an export can tell. -/
theorem TakenFrom.unique (first : s.TakenFrom storage history options)
    (second : t.TakenFrom storage history options) :
    s.artifacts options = t.artifacts options ∧ s.summary options = t.summary options := by
  have same := first.run_eq second []
  constructor
  · simpa [artifacts_run] using congrArg (List.flatMap Part.artifacts) same
  · rw [summary, summary, tables_injective same]

end Survey

end TableExport
