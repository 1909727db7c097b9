import Mathlib
import TableExport.Proofs.Calendar.Rereading
import TableExport.Proofs.Postgres.Extremes

/-!
# Timestamps

A timestamp is written as date, time of day, fraction and `Z`, in any year of the calendar and to
the nanosecond. Its text can be read back, so two timestamps with one text are the same.
-/
namespace TableExport.Postgres
open Calendar (Instant Date)

/-- What is rendered for a timestamp is the text of the instant it stands for. -/
theorem exists_instant {bytes : Bytes} {s : String} (rendered : timestamp bytes = .ok s) :
    ∃ micros i, integer 64 bytes = .ok micros ∧ Instant.ofMicros? micros = some i ∧
      s = String.ofList i.text := by
  cases number : integer 64 bytes with
  | error fault =>
    rw [timestamp, number] at rendered
    cases rendered
  | ok micros =>
    cases found : Instant.ofMicros? micros with
    | none => simp [timestamp, number, found, orCrash, bind, Except.bind] at rendered
    | some i =>
      refine ⟨micros, i, rfl, found, ?_⟩
      simpa [timestamp, number, found, orCrash, bind, Except.bind, pure, Except.pure, eq_comm]
        using rendered

theorem timestamp_inj {bytes others : Bytes} {s : String} (rendered : timestamp bytes = .ok s)
    (also : timestamp others = .ok s) :
    ∃ micros, integer 64 bytes = .ok micros ∧ integer 64 others = .ok micros := by
  obtain ⟨micros, i, number, found, rfl⟩ := exists_instant rendered
  obtain ⟨more, j, other, foundToo, same⟩ := exists_instant also
  have equal : i = j :=
    (Instant.dated_of_micros found).text_inj (Instant.dated_of_micros foundToo)
      (String.ofList_inj.mp same)
  subst equal
  rw [Instant.ofMicros?_inj foundToo found] at other
  exact ⟨micros, number, other⟩

/-- Every instant of the calendar is written as date, `T`, time of day and `Z`, with a fraction only
of a second that is not whole, whose last digit is no zero; that is what trimming leaves of nine
digits of the fraction. Its text is read as that instant. So values of a timestamp type with one
rendering are the same number of microseconds. -/
theorem timestamps_reread :
    (∀ i : Instant, i.Dated →
      (∃ date clock fraction, i.Written date clock fraction) ∧
      i.text = (i.nineDigits.rdropWhile (· = '0')).rdropWhile (· = '.') ++ ['Z'] ∧
      Instant.ofText? i.text = some i) ∧
    ∀ typeName ∈ stampTypes, ∀ otherType ∈ stampTypes, ∀ bytes others s,
      text typeName bytes = .ok s → text otherType others = .ok s →
      ∃ micros, integer 64 bytes = .ok micros ∧ integer 64 others = .ok micros := by
  refine ⟨fun i dated => ⟨?_, i.text_eq_trimmed, dated.ofText?_text⟩, ?_⟩
  · obtain ⟨date, clock, written⟩ := dated.written
    exact ⟨date, clock, _, written⟩
  · intro typeName stamp otherType otherStamp bytes others s rendered also
    rw [text_stamp stamp] at rendered
    rw [text_stamp otherStamp] at also
    exact timestamp_inj rendered also

/-- Ten seconds past half past midnight on a day of the year -43, and half a second. -/
def longAgo : Instant := ⟨Date.number ⟨-43, 3, 15⟩, 1810500000000⟩

theorem timestamps_reread_longAgo :
    longAgo.Dated ∧ String.ofList longAgo.text = "-0043-03-15T00:30:10.5Z" ∧
      Instant.ofText? longAgo.text = some longAgo ∧
      ∃ micros, integer 64 (Datum.int8 0).bytes = .ok micros ∧ integer 64 [0] = .ok micros := by
  have dated : longAgo.Dated := ⟨⟨⟨-43, 3, 15⟩, by decide, rfl⟩, by decide⟩
  have rendered : text "TIMESTAMP" (Datum.int8 0).bytes = .ok "2000-01-01T00:00:00Z" := by
    decide +kernel
  have also : text "TIMESTAMPTZ" [0] = .ok "2000-01-01T00:00:00Z" := by decide +kernel
  exact ⟨dated, by decide +kernel, (timestamps_reread.1 longAgo dated).2.2,
    timestamps_reread.2 "TIMESTAMP" (by decide) "TIMESTAMPTZ" (by decide) _ _ _ rendered also⟩

end TableExport.Postgres
