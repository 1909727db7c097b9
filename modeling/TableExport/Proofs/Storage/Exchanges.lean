import TableExport.Storage.Basic

/-!
# Conversations with a storage

What a storage answers may depend on all it was asked before. A conversation is a list
of calls with their answers, each of them given after the calls in front of it.
-/
namespace TableExport

/-- A call and the answer to it. -/
structure Exchange where
  call : Call
  answer : call.Answer

instance (call : Call) : Inhabited call.Answer :=
  match call with
  | .listTables => ⟨([] : List TableName)⟩
  | .describe _ => ⟨([] : List Column)⟩
  | .readRows _ _ _ => ⟨([] : List Row)⟩
  | .countRecords _ => ⟨(0 : Int)⟩
  | .disabledRules => ⟨([] : List DisabledRule)⟩
  | .close => ⟨()⟩

namespace Storage

/-- After the calls of a history the storage gives these answers when it is asked in this
order. -/
def Gives (storage : Storage) : List Call → List Exchange → Prop
  | _, [] => True
  | history, ⟨call, answer⟩ :: rest =>
    (storage.reply history call).outcome = .ok answer ∧ storage.Gives (history ++ [call]) rest

theorem gives_append {storage : Storage} {history : List Call} {xs ys : List Exchange} :
    storage.Gives history (xs ++ ys) ↔
      storage.Gives history xs ∧ storage.Gives (history ++ xs.map Exchange.call) ys := by
  induction xs generalizing history with
  | nil => simp [Gives]
  | cons x xs ih => simp [Gives, ih, and_assoc]

end Storage

/-! ## Lists that part -/

/-- Two lists that are alike place by place until they differ. -/
inductive Lockstep {α : Type} (alike : α → α → Prop) : List α → List α → Prop
  | nil : Lockstep alike [] []
  | cons {x y : α} {xs ys : List α} (here : alike x y) (onward : x = y → Lockstep alike xs ys) :
    Lockstep alike (x :: xs) (y :: ys)

namespace Lockstep
variable {α : Type} {alike : α → α → Prop} {xs ys : List α}

theorem refl (same : ∀ x, alike x x) (xs : List α) : Lockstep alike xs xs := by
  induction xs with
  | nil => exact .nil
  | cons x xs ih => exact .cons (same x) fun _ => ih

theorem append {us vs : List α} (first : Lockstep alike xs ys)
    (onward : xs = ys → Lockstep alike us vs) : Lockstep alike (xs ++ us) (ys ++ vs) := by
  induction first with
  | nil => exact onward rfl
  | cons here same ih =>
    refine .cons here fun heads => ?_
    subst heads
    exact ih rfl fun rest => onward (congrArg _ rest)

variable {storage : Storage} {history : List Call} (asks : α → List Exchange)
  (decides : ∀ {history x y}, alike x y → storage.Gives history (asks x) →
    storage.Gives history (asks y) → x = y)
include decides

/-- If one storage answers all that is asked, there is nothing they could differ in. -/
theorem eq_of_gives (lockstep : Lockstep alike xs ys)
    (given : storage.Gives history (xs.flatMap asks))
    (again : storage.Gives history (ys.flatMap asks)) : xs = ys := by
  induction lockstep generalizing history with
  | nil => rfl
  | cons here same ih =>
    rw [List.flatMap_cons, Storage.gives_append] at given again
    obtain rfl := decides here given.1 again.1
    rw [ih rfl given.2 again.2]

/-- As far as the storage has answered in one of them, the other is the same, and goes on alike. -/
theorem meets {front back : List α} {y : α} (lockstep : Lockstep alike xs (front ++ y :: back))
    (given : storage.Gives history (xs.flatMap asks))
    (again : storage.Gives history (front.flatMap asks)) :
    ∃ x rest, xs = front ++ x :: rest ∧ alike x y := by
  induction front generalizing xs history with
  | nil =>
    obtain _ | ⟨here, -⟩ := lockstep
    exact ⟨_, _, rfl, here⟩
  | cons first front ih =>
    obtain _ | ⟨here, onward⟩ := lockstep
    rw [List.flatMap_cons, Storage.gives_append] at given again
    -- the heads are the same, so the rest is asked after the same questions
    obtain rfl := decides here given.1 again.1
    obtain ⟨x, rest, rfl, met⟩ := ih (onward rfl) given.2 again.2
    exact ⟨x, rest, rfl, met⟩

end Lockstep

/-! ## Conversations that part -/

theorem Exchange.answer_injective {call : Call} {a b : call.Answer}
    (same : (⟨call, a⟩ : Exchange) = ⟨call, b⟩) : a = b := by
  cases same
  rfl

/-- A storage that is asked the same again gives the same answer. -/
theorem Exchange.eq_of_gives {storage : Storage} {history : List Call} {x y : Exchange}
    (same : x.call = y.call) (given : storage.Gives history [x])
    (again : storage.Gives history [y]) : x = y := by
  obtain ⟨call, answer⟩ := x
  obtain ⟨_, answer'⟩ := y
  cases same
  rw [Except.ok.inj (given.1.symm.trans again.1)]

/-- Two conversations that ask the same as long as they get the same answers. -/
def Forked (xs ys : List Exchange) : Prop := Lockstep (fun x y => x.call = y.call) xs ys

namespace Forked
variable {storage : Storage} {history : List Call} {xs ys : List Exchange}

theorem refl (exchanges : List Exchange) : Forked exchanges exchanges :=
  Lockstep.refl (fun exchange => Eq.refl exchange.call) exchanges

theorem eq_of_gives (forked : Forked xs ys) (given : storage.Gives history xs)
    (again : storage.Gives history ys) : xs = ys := by
  apply Lockstep.eq_of_gives (fun x => [x]) Exchange.eq_of_gives forked
  · rwa [List.flatMap_singleton']
  · rwa [List.flatMap_singleton']

/-- What is asked next in one of them is answered in the other. -/
theorem answered {front back : List Exchange} {exchange : Exchange}
    (forked : Forked xs (front ++ exchange :: back)) (given : storage.Gives history xs)
    (again : storage.Gives history front) : ∃ answer,
      (storage.reply (history ++ front.map Exchange.call) exchange.call).outcome = .ok answer := by
  have single (xs : List Exchange) : xs.flatMap (fun x => [x]) = xs := List.flatMap_singleton' xs
  obtain ⟨⟨call, answer⟩, rest, rfl, same⟩ := Lockstep.meets (fun x => [x])
    Exchange.eq_of_gives forked (by rwa [single]) (by rwa [single])
  cases same
  exact ⟨answer, (Storage.gives_append.mp given).2.1⟩

end Forked

end TableExport
