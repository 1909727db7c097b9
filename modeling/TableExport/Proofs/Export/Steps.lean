import TableExport.Proofs.Storage.Exchanges
import TableExport.Export.World

/-!
# Steps of a run

A sequence of steps succeeds if each of them does, and fails where the first of them does.
What a step asked and reported is added to the world it leaves behind.
-/
namespace TableExport

theorem bind_ok {ε σ α β : Type} {x : EStateM ε σ α} {f : α → EStateM ε σ β} {s s' : σ} {b : β}
    (h : (x >>= f) s = .ok b s') : ∃ a between, x s = .ok a between ∧ f a between = .ok b s' := by
  simp only [bind, EStateM.bind] at h
  split at h
  next a between first => exact ⟨a, between, first, h⟩
  next => cases h

theorem bind_error {ε σ α β : Type} {x : EStateM ε σ α} {f : α → EStateM ε σ β} {s s' : σ} {e : ε}
    (h : (x >>= f) s = .error e s') :
    x s = .error e s' ∨ ∃ a between, x s = .ok a between ∧ f a between = .error e s' := by
  simp only [bind, EStateM.bind] at h
  split at h
  next a between first => exact .inr ⟨a, between, first, h⟩
  next e' between first =>
    cases h
    exact .inl first

/-- Whether a step succeeded with a result and a state that pass a test. -/
def succeeds {ε σ α : Type} (passes : α → σ → Bool) : EStateM.Result ε σ α → Bool
  | .ok a s => passes a s
  | .error _ _ => false

theorem ok_of_succeeds {ε σ α : Type} {passes : α → σ → Bool} {result : EStateM.Result ε σ α}
    (h : succeeds passes result = true) : ∃ a s, result = .ok a s ∧ passes a s = true := by
  cases result with
  | ok a s => exact ⟨a, s, rfl, h⟩
  | error e s => cases h

/-- Whether a step failed with a fault and a state that pass a test. -/
def fails {ε σ α : Type} (passes : ε → σ → Bool) : EStateM.Result ε σ α → Bool
  | .ok _ _ => false
  | .error e s => passes e s

theorem error_of_fails {ε σ α : Type} {passes : ε → σ → Bool} {result : EStateM.Result ε σ α}
    (h : fails passes result = true) : ∃ e s, result = .error e s ∧ passes e s = true := by
  cases result with
  | ok a s => cases h
  | error e s => exact ⟨e, s, rfl, h⟩

theorem get_bind {ε σ α : Type} (next : σ → EStateM ε σ α) (s : σ) :
    ((get : EStateM ε σ σ) >>= next) s = next s s := rfl

theorem set_bind {ε σ α : Type} (new : σ) (next : PUnit → EStateM ε σ α) (s : σ) :
    ((set new : EStateM ε σ PUnit) >>= next) s = next () new := rfl

theorem get_ok {ε σ : Type} {s s' got : σ} (h : (get : EStateM ε σ σ) s = .ok got s') :
    got = s ∧ s' = s := by
  cases h
  exact ⟨rfl, rfl⟩

/-- Between two worlds the storage was asked some questions and answered them. Events were
only added. -/
structure Talks (storage : Storage) (before : World) (exchanges : List Exchange)
    (after : World) : Prop where
  gives : storage.Gives before.calls exchanges
  calls : after.calls = before.calls ++ exchanges.map Exchange.call
  log : before.log <+: after.log

namespace Talks
variable {storage : Storage} {a b c : World} {xs ys : List Exchange}

theorem silent (storage : Storage) {before after : World} (calls : after.calls = before.calls)
    (log : before.log <+: after.log) : Talks storage before [] after :=
  ⟨trivial, by simp [calls], log⟩

theorem trans (first : Talks storage a xs b) (second : Talks storage b ys c) :
    Talks storage a (xs ++ ys) c where
  gives := Storage.gives_append.mpr ⟨first.gives, first.calls ▸ second.gives⟩
  calls := by rw [second.calls, first.calls, List.map_append, List.append_assoc]
  log := first.log.trans second.log

/-- Nothing more was asked. -/
theorem later (talks : Talks storage a xs b) (calls : c.calls = b.calls) (log : b.log <+: c.log) :
    Talks storage a xs c := by
  simpa using talks.trans (silent storage calls log)

end Talks

/-- The storage failed to answer a question. -/
structure Unanswered (storage : Storage) (before : World) (call : Call)
    (fault : Fault ExportError) (after : World) : Prop where
  failed : (storage.reply before.calls call).outcome = .error fault
  calls : after.calls = before.calls ++ [call]
  log : before.log <+: after.log

/-- Questions were asked in this order until the conversation ended. All that were asked were
answered, but maybe the last one; then that is why it ended. -/
inductive Halted (storage : Storage) (before : World) :
    List Exchange → Fault ExportError → World → Prop
  | between {answered later : List Exchange} {fault : Fault ExportError} {after : World}
    (talks : Talks storage before answered after) :
    Halted storage before (answered ++ later) fault after
  | unanswered {answered later : List Exchange} {exchange : Exchange} {between after : World}
    {fault : Fault ExportError} (talks : Talks storage before answered between)
    (failed : Unanswered storage between exchange.call fault after) :
    Halted storage before (answered ++ exchange :: later) fault after

namespace Halted
variable {storage : Storage} {a b c : World} {xs ys : List Exchange} {fault : Fault ExportError}

theorem silent (calls : b.calls = a.calls) (log : a.log <+: b.log) : Halted storage a xs fault b :=
  @between storage a [] xs fault b (.silent storage calls log)

theorem atOnce {exchange : Exchange} (failed : Unanswered storage a exchange.call fault b) :
    Halted storage a (exchange :: xs) fault b :=
  @unanswered storage a [] xs exchange a b fault (.silent storage rfl (List.prefix_refl _)) failed

theorem after (talks : Talks storage a xs b) (halted : Halted storage b ys fault c) :
    Halted storage a (xs ++ ys) fault c := by
  cases halted with
  | between more =>
    rw [← List.append_assoc]
    exact .between (talks.trans more)
  | unanswered more failed =>
    rw [← List.append_assoc]
    exact .unanswered (talks.trans more) failed

theorem append (halted : Halted storage a xs fault b) (ys : List Exchange) :
    Halted storage a (xs ++ ys) fault b := by
  cases halted with
  | between talks =>
    rw [List.append_assoc]
    exact .between talks
  | unanswered talks failed =>
    rw [List.append_assoc, List.cons_append]
    exact .unanswered talks failed

/-- Nothing more was asked. -/
theorem later (halted : Halted storage a xs fault b) (calls : c.calls = b.calls)
    (log : b.log <+: c.log) : Halted storage a xs fault c := by
  cases halted with
  | between talks => exact .between (talks.later calls log)
  | unanswered talks failed =>
    exact .unanswered talks ⟨failed.failed, calls.trans failed.calls, failed.log.trans log⟩

end Halted

/-- Nothing was stored between two worlds. -/
structure Keeps (before after : World) : Prop where
  files : after.files = before.files
  objects : after.objects = before.objects
  attempts : after.attempts = before.attempts

theorem Keeps.trans {a b c : World} (first : Keeps a b) (second : Keeps b c) : Keeps a c :=
  ⟨second.files.trans first.files, second.objects.trans first.objects,
    second.attempts.trans first.attempts⟩

namespace Run

theorem ask_ok {storage : Storage} {call : Call} {answer : call.Answer} {world world' : World}
    (h : ask storage call world = .ok answer world') :
    Talks storage world [⟨call, answer⟩] world' ∧ Keeps world world' := by
  simp only [ask] at h
  split at h
  next found outcome =>
    cases h
    exact ⟨⟨⟨outcome, trivial⟩, rfl, List.prefix_append ..⟩, ⟨rfl, rfl, rfl⟩⟩
  next => cases h

theorem ask_error {storage : Storage} {call : Call} {fault : Fault ExportError}
    {world world' : World} (h : ask storage call world = .error fault world') :
    Unanswered storage world call fault world' ∧ Keeps world world' := by
  simp only [ask] at h
  split at h
  next => cases h
  next found outcome =>
    cases h
    exact ⟨⟨outcome, rfl, List.prefix_append ..⟩, ⟨rfl, rfl, rfl⟩⟩

theorem report_ok {event : Log.Event} {world world' : World} {done : Unit}
    (h : report event world = .ok done world') :
    world' = { world with log := world.log ++ [event] } := by
  cases h
  rfl

theorem report_talks (storage : Storage) {event : Log.Event} {world world' : World} {done : Unit}
    (h : report event world = .ok done world') :
    Talks storage world [] world' ∧ Keeps world world' := by
  rw [report_ok h]
  exact ⟨.silent storage rfl (List.prefix_append ..), ⟨rfl, rfl, rfl⟩⟩

/-- The event of an upload that was taken. -/
def uploaded (object : Upload) : Log.Event :=
  ⟨.debug, Log.uploadTarget, "Object uploaded",
    [("key", .literal object.key), ("bucket", .shown object.bucket),
     ("size", .number object.body.length)]⟩

theorem upload_ok {service : ObjectService} {object : Upload} {world world' : World} {done : Unit}
    (h : upload service object world = .ok done world') :
    world' = { world with
      attempts := world.attempts + 1
      objects := world.objects ++ [object]
      log := world.log ++ [uploaded object] } := by
  obtain ⟨_, current, asked, rest⟩ := bind_ok h
  obtain ⟨rfl, rfl⟩ := get_ok asked
  obtain ⟨_, _, counted, last⟩ := bind_ok rest
  cases counted
  -- the attempt is counted before the service answers
  split at last
  next =>
    cases last
    rfl
  next => cases last

/-- An upload that is refused leaves nothing but the attempt. -/
theorem upload_error {service : ObjectService} {object : Upload} {fault : Fault ExportError}
    {world world' : World} (h : upload service object world = .error fault world') :
    world' = { world with attempts := world'.attempts } ∧
      ∃ context, fault = .raised (.write context .refused) := by
  obtain asked | ⟨_, current, asked, rest⟩ := bind_error h
  · cases asked
  obtain ⟨rfl, rfl⟩ := get_ok asked
  obtain counted | ⟨_, _, counted, last⟩ := bind_error rest
  · cases counted
  cases counted
  split at last
  next => cases last
  next =>
    cases last
    exact ⟨rfl, _, rfl⟩

/-- An upload goes through if the service accepts it, and only then. -/
theorem upload_iff {service : ObjectService} {object : Upload} {world : World} :
    (∃ after, upload service object world = .ok () after) ↔
      service.accepts world.attempts object = true := by
  simp only [upload, get_bind, set_bind]
  split
  next taken => exact ⟨fun _ => taken, fun _ => ⟨_, rfl⟩⟩
  next refused =>
    constructor
    · rintro ⟨after, sent⟩
      cases sent
    · exact fun taken => absurd taken refused

end Run

end TableExport
