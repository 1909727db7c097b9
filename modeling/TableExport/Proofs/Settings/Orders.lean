import Mathlib
import TableExport.Proofs.Settings.Layers

/-!
# Orders of variables

Variables come in an order that nobody promises, and of two that address one setting the later
one counts. So an environment means the same in every order exactly if it does not matter which
of its variables comes last for a setting. That is decided by what the variables offer, without
looking at their order: an illegible one is refused wherever it stands, and a port that is given
by numbers of no port only is refused in the end.
-/
namespace TableExport

/-- Two loads that come to the same: the same settings, or a refusal each. -/
inductive Alike : Except ExportError Settings → Except ExportError Settings → Prop
  | settled (settings : Settings) : Alike (.ok settings) (.ok settings)
  | refused (e other : ExportError) : Alike (.error e) (.error other)

namespace Alike
variable {a b c : Except ExportError Settings}

theorem symm (alike : Alike a b) : Alike b a := by
  cases alike with
  | settled settings => exact .settled settings
  | refused e other => exact .refused other e

theorem trans (first : Alike a b) (second : Alike b c) : Alike a c := by
  cases first with
  | settled settings => exact second
  | refused e other =>
    cases second with
    | refused _ last => exact .refused e last

end Alike

/-- Some variable of the environment gives a setting this value. -/
def Offers (environment : List Variable) (key : Key) (value : Scalar) : Prop :=
  ∃ entry ∈ environment, Addresses entry.1 key ∧ Reads key.type entry.2 value

/-- A value that its setting can have in the end: a port has to be one. -/
def Scalar.Admissible (value : Scalar) : Prop := ∀ n, value = .integer n → 0 ≤ n ∧ n ≤ 65535

/-- All values that are offered for some setting are inadmissible. -/
def Hopeless (environment : List Variable) : Prop :=
  ∃ key, (∃ value, Offers environment key value) ∧
    ∀ value, Offers environment key value → ¬value.Admissible

/-- No two values are offered for one setting. -/
def Unanimous (environment : List Variable) : Prop :=
  ∀ key a b, Offers environment key a → Offers environment key b → a = b

theorem Offers.perm {environment other : List Variable} {key : Key} {value : Scalar}
    (offers : Offers environment key value) (same : environment.Perm other) :
    Offers other key value := by
  obtain ⟨entry, member, addresses, reads⟩ := offers
  exact ⟨entry, same.mem_iff.mp member, addresses, reads⟩

/-! ## The variable that counts -/

theorem Last.mem {environment : List Variable} {key : Key} {entry : Variable}
    (last : Last environment key entry) : entry ∈ environment ∧ Addresses entry.1 key := by
  obtain ⟨before, after, rfl, addresses, -⟩ := last
  exact ⟨by simp, addresses⟩

theorem Last.offers {environment : List Variable} {key : Key} {entry : Variable} {value : Scalar}
    (last : Last environment key entry) (reads : Reads key.type entry.2 value) :
    Offers environment key value := ⟨entry, last.mem.1, last.mem.2, reads⟩

/-- Of the variables that address a setting one is the last. -/
theorem exists_last {environment : List Variable} {key : Key} {entry : Variable}
    (member : entry ∈ environment) (addresses : Addresses entry.1 key) :
    ∃ last, Last environment key last := by
  induction environment generalizing entry with
  | nil => cases member
  | cons first rest ih =>
    by_cases later : ∃ other ∈ rest, Addresses other.1 key
    · obtain ⟨other, found, there⟩ := later
      obtain ⟨last, isLast⟩ := ih found there
      exact ⟨last, isLast.cons first⟩
    · have free : ∀ other ∈ rest, ¬Addresses other.1 key := fun other found there =>
        later ⟨other, found, there⟩
      obtain rfl : entry = first := by
        refine (List.mem_cons.mp member).resolve_right fun found => ?_
        exact free entry found addresses
      exact ⟨entry, [], rest, rfl, addresses, free⟩

/-- Any choice of a variable for each setting is what some order ends with: the chosen ones are
put behind all others. -/
theorem exists_order (environment : List Variable) (choice : Key → Variable) :
    ∃ other, environment.Perm other ∧
      ∀ key, choice key ∈ environment → Addresses (choice key).1 key →
        Last other key (choice key) := by
  classical
  let chosen (entry : Variable) : Bool := decide (∃ key, Addresses entry.1 key ∧ entry = choice key)
  refine ⟨environment.filter (fun entry => !chosen entry) ++ environment.filter chosen, ?_, ?_⟩
  · exact (List.perm_append_comm.trans (List.filter_append_perm chosen environment)).symm
  · intro key member addresses
    have kept : choice key ∈ environment.filter chosen :=
      List.mem_filter.mpr ⟨member, decide_eq_true ⟨key, addresses, rfl⟩⟩
    obtain ⟨last, before, after, split, here, free⟩ := exists_last kept addresses
    -- what was put behind addresses the setting only as its choice
    obtain rfl : last = choice key := by
      have listed : last ∈ environment.filter chosen := by simp [split]
      obtain ⟨other, there, same⟩ := of_decide_eq_true (List.mem_filter.mp listed).2
      rw [same, there.unique here]
    refine ⟨environment.filter (fun entry => !chosen entry) ++ before, after, ?_, here, free⟩
    rw [split, List.append_assoc]

/-! ## Where the order does not count -/

namespace Settings
variable (settings : Settings) {environment other : List Variable}

theorem override_illegible (illegible : ∃ entry ∈ environment, ¬Legible entry) :
    ∃ e, settings.override environment = .error e := by
  obtain ⟨entry, member, unread⟩ := illegible
  obtain ⟨found, ended, legible, -⟩ | ⟨e, ended, -⟩ | ⟨ended, legible, -⟩ :=
    settings.override_cases environment
  · exact absurd (legible entry member) unread
  · exact ⟨e, ended⟩
  · exact absurd (legible entry member) unread

theorem illegible_perm (illegible : ∃ entry ∈ environment, ¬Legible entry)
    (same : environment.Perm other) :
    Alike (settings.override environment) (settings.override other) := by
  obtain ⟨e, refused⟩ := override_illegible settings illegible
  obtain ⟨entry, member, unread⟩ := illegible
  obtain ⟨e', refused'⟩ :=
    override_illegible settings ⟨entry, same.mem_iff.mp member, unread⟩
  rw [refused, refused']
  exact .refused e e'

theorem portOutside_of_hopeless (legible : ∀ entry ∈ environment, Legible entry)
    (hopeless : Hopeless environment) : PortOutside environment := by
  obtain ⟨key, ⟨_, entry, member, addresses, -⟩, all⟩ := hopeless
  obtain ⟨last, isLast⟩ := exists_last member addresses
  obtain ⟨value, reads⟩ := legible last isLast.mem.1 key isLast.mem.2
  have inadmissible := all value (isLast.offers reads)
  obtain ⟨n, inadmissible⟩ := not_forall.mp inadmissible
  obtain ⟨rfl, outside⟩ := Classical.not_imp.mp inadmissible
  exact ⟨key, last, n, isLast, reads, outside⟩

theorem override_hopeless (hopeless : Hopeless environment) :
    ∃ e, settings.override environment = .error e := by
  obtain ⟨found, ended, legible, inside, -⟩ | ⟨e, ended, -⟩ | ⟨ended, -, -⟩ :=
    settings.override_cases environment
  · exact absurd (portOutside_of_hopeless legible hopeless) inside
  · exact ⟨e, ended⟩
  · exact ⟨_, ended⟩

theorem hopeless_perm (hopeless : Hopeless environment) (same : environment.Perm other) :
    Alike (settings.override environment) (settings.override other) := by
  obtain ⟨e, refused⟩ := override_hopeless settings hopeless
  obtain ⟨key, ⟨value, offers⟩, all⟩ := hopeless
  obtain ⟨e', refused'⟩ := override_hopeless settings
    ⟨key, ⟨value, offers.perm same⟩, fun a offers => all a (offers.perm same.symm)⟩
  rw [refused, refused']
  exact .refused e e'

theorem portOutside_perm (unanimous : Unanimous environment)
    (legible : ∀ entry ∈ environment, Legible entry) (same : environment.Perm other)
    (outside : PortOutside environment) : PortOutside other := by
  obtain ⟨key, entry, n, last, reads, far⟩ := outside
  obtain ⟨member, addresses⟩ := last.mem
  obtain ⟨counts, isLast⟩ := exists_last (same.mem_iff.mp member) addresses
  obtain ⟨value, found⟩ := legible counts (same.mem_iff.mpr isLast.mem.1) key isLast.mem.2
  obtain rfl := unanimous key value (.integer n) ((isLast.offers found).perm same.symm)
    (last.offers reads)
  exact ⟨key, counts, n, isLast, found, far⟩

theorem layered_perm {below : Key → Scalar → Prop} {key : Key} {a b : Scalar}
    (unanimous : Unanimous environment) (same : environment.Perm other)
    (functional : ∀ {x y}, below key x → below key y → x = y)
    (here : Layered below environment key a) (there : Layered below other key b) : a = b := by
  cases here with
  | overridden last reads =>
    cases there with
    | overridden last' reads' =>
      exact unanimous key a b (last.offers reads) ((last'.offers reads').perm same.symm)
    | kept free _ => exact absurd last.mem.2 (free _ (same.mem_iff.mp last.mem.1))
  | kept free value =>
    cases there with
    | overridden last _ => exact absurd last.mem.2 (free _ (same.mem_iff.mpr last.mem.1))
    | kept _ value' => exact functional value value'

theorem override_perm (unanimous : Unanimous environment)
    (legible : ∀ entry ∈ environment, Legible entry) (same : environment.Perm other) :
    Alike (settings.override environment) (settings.override other) := by
  have legible' : ∀ entry ∈ other, Legible entry := fun entry member =>
    legible entry (same.mem_iff.mpr member)
  have unanimous' : Unanimous other := fun key a b first second =>
    unanimous key a b (first.perm same.symm) (second.perm same.symm)
  obtain ⟨found, ended, -, inside, layered⟩ | ⟨e, -, refused⟩ | ⟨ended, -, outside⟩ :=
    settings.override_cases environment
  · obtain ⟨found', ended', -, -, layered'⟩ | ⟨e, -, refused⟩ | ⟨-, -, outside⟩ :=
      settings.override_cases other
    · have drafts : Draft.ofSettings found = Draft.ofSettings found' := funext fun key =>
        layered_perm unanimous same (fun here there => here.symm.trans there) (layered key)
          (layered' key)
      rw [ended, ended', Draft.ofSettings_injective drafts]
      exact .settled found'
    · exact absurd legible' refused.not_legible
    · exact absurd (portOutside_perm unanimous' legible' same.symm outside) inside
  · exact absurd legible refused.not_legible
  · obtain ⟨found', -, -, inside, -⟩ | ⟨e, -, refused⟩ | ⟨ended', -, -⟩ :=
      settings.override_cases other
    · exact absurd (portOutside_perm unanimous legible same outside) inside
    · exact absurd legible' refused.not_legible
    · rw [ended, ended']
      exact .refused _ _

/-! ## Where it does -/

/-- Any value that is offered decides some order: the setting gets it there if it can have it, and
else the load is refused. -/
theorem exists_override {key : Key} {value : Scalar}
    (legible : ∀ entry ∈ environment, Legible entry) (hopeful : ¬Hopeless environment)
    (offers : Offers environment key value) :
    ∃ other, environment.Perm other ∧
      (value.Admissible → ∃ result, settings.override other = .ok result ∧
        Draft.ofSettings result key = value) ∧
      (¬value.Admissible → ∃ e, settings.override other = .error e) := by
  classical
  obtain ⟨entry, member, addresses, reads⟩ := offers
  -- every other setting that is addressed at all can be given an admissible value
  have willing (there : Key) : ∃ counts : Variable, (∃ a, Offers environment there a) →
      counts ∈ environment ∧ Addresses counts.1 there ∧
        ∃ a, Reads there.type counts.2 a ∧ a.Admissible := by
    by_cases offered : ∃ a, Offers environment there a
    · by_contra none
      refine hopeful ⟨there, offered, fun a ⟨counts, listed, here, read⟩ admissible => none ?_⟩
      exact ⟨counts, fun _ => ⟨listed, here, a, read, admissible⟩⟩
    · exact ⟨entry, fun some_ => absurd some_ offered⟩
  choose counts usable using willing
  obtain ⟨other, same, ends⟩ := exists_order environment (Function.update counts key entry)
  have last : Last other key entry := by
    have here := ends key
    rw [Function.update_self] at here
    exact here member addresses
  have legible' : ∀ entry ∈ other, Legible entry := fun entry found =>
    legible entry (same.mem_iff.mpr found)
  refine ⟨other, same, fun admissible => ?_, fun inadmissible => ?_⟩
  · obtain ⟨result, ended, -, -, layered⟩ | ⟨e, -, refused⟩ | ⟨-, -, outside⟩ :=
      settings.override_cases other
    · exact ⟨result, ended, (Layered.of_last last reads (layered key)).symm⟩
    · exact absurd legible' refused.not_legible
    · obtain ⟨there, port, n, isLast, number, far⟩ := outside
      by_cases here : there = key
      · subst here
        cases last.unique isLast
        exact absurd (admissible n (reads.unique number)) far
      · have offered : Offers environment there (.integer n) := (isLast.offers number).perm same.symm
        obtain ⟨listed, aims, a, read, usual⟩ := usable there ⟨_, offered⟩
        have other' := ends there
        rw [Function.update_of_ne here] at other'
        cases (other' listed aims).unique isLast
        exact absurd (usual n (read.unique number)) far
  · obtain ⟨result, -, -, -, layered⟩ | ⟨e, ended, -⟩ | ⟨ended, -, -⟩ :=
      settings.override_cases other
    · refine absurd (fun n number => ?_) inadmissible
      have value' := Layered.of_last last reads (layered key)
      exact ofSettings_integer (value'.symm.trans number)
    · exact ⟨e, ended⟩
    · exact ⟨_, ended⟩

/-- Where all orders come to the same, an admissible value has no rival. -/
theorem eq_of_alike {key : Key} {a b : Scalar} (legible : ∀ entry ∈ environment, Legible entry)
    (hopeful : ¬Hopeless environment)
    (alike : ∀ other, environment.Perm other →
      Alike (settings.override environment) (settings.override other))
    (first : Offers environment key a) (admissible : a.Admissible)
    (second : Offers environment key b) : a = b := by
  obtain ⟨front, toFront, settled, -⟩ := exists_override settings legible hopeful first
  obtain ⟨back, toBack, settled', refused⟩ :=
    exists_override settings legible hopeful second
  have both := (alike front toFront).symm.trans (alike back toBack)
  obtain ⟨result, ended, value⟩ := settled admissible
  rw [ended] at both
  by_cases admissible' : b.Admissible
  · obtain ⟨result', ended', value'⟩ := settled' admissible'
    rw [ended'] at both
    cases both
    exact value.symm.trans value'
  · obtain ⟨e, failed⟩ := refused admissible'
    rw [failed] at both
    cases both

/-! ## Main result -/

/-- An environment comes to the same in every order exactly if some variable cannot be read, or
all numbers given for some port are those of no port, or no two variables give one setting
different values. -/
theorem override_unordered_iff (settings : Settings) (environment : List Variable) :
    (∀ other, environment.Perm other →
      Alike (settings.override environment) (settings.override other)) ↔
    (∃ entry ∈ environment, ¬Legible entry) ∨ Hopeless environment ∨ Unanimous environment := by
  constructor
  · intro alike
    by_cases illegible : ∃ entry ∈ environment, ¬Legible entry
    · exact .inl illegible
    by_cases hopeless : Hopeless environment
    · exact .inr (.inl hopeless)
    have legible : ∀ entry ∈ environment, Legible entry := by simpa using illegible
    refine .inr (.inr fun key a b first second => ?_)
    -- some admissible value is offered, and it equals both
    obtain ⟨c, offers, admissible⟩ : ∃ c, Offers environment key c ∧ c.Admissible := by
      by_contra none
      exact hopeless ⟨key, ⟨a, first⟩, fun c offers usual => none ⟨c, offers, usual⟩⟩
    calc
      a = c := (eq_of_alike settings legible hopeless alike offers admissible first).symm
      _ = b := eq_of_alike settings legible hopeless alike offers admissible second
  · rintro (illegible | hopeless | unanimous) other same
    · exact illegible_perm settings illegible same
    · exact hopeless_perm settings hopeless same
    · by_cases illegible : ∃ entry ∈ environment, ¬Legible entry
      · exact illegible_perm settings illegible same
      · exact override_perm settings unanimous (by simpa using illegible) same

end Settings

/-- One setting under two names that differ in their letter case. -/
def rivals : List Variable :=
  [(overridePrefix ++ "LOGGING__DEBUG", "true"), (overridePrefix ++ "logging__debug", "false")]

private theorem addressed?_upper :
    addressed? (overridePrefix ++ "LOGGING__DEBUG") = some .debug := by decide +kernel

private theorem addressed?_lower :
    addressed? (overridePrefix ++ "logging__debug") = some .debug := by decide +kernel

private theorem read_true : ScalarType.read .boolean "true" = some (.boolean true) := by
  decide +kernel

private theorem read_false : ScalarType.read .boolean "false" = some (.boolean false) := by
  decide +kernel

private theorem override_rivals : ({} : Settings).override rivals = .ok {} := by
  refine Settings.override_of_draft ?_ (Draft.toSettings?_ofSettings _)
  simp only [rivals, Draft.overrideAll, Draft.override, addressed?_upper, addressed?_lower,
    read_true, read_false, Key.type]
  congr 1
  funext key
  cases key <;> rfl

private theorem override_rivals_reverse :
    ({} : Settings).override rivals.reverse = .ok { logging.debug := true } := by
  refine Settings.override_of_draft ?_ (Draft.toSettings?_ofSettings _)
  simp only [rivals, List.reverse_cons, List.reverse_nil, List.nil_append, List.cons_append,
    Draft.overrideAll, Draft.override, addressed?_upper, addressed?_lower, read_true, read_false,
    Key.type]
  congr 1
  funext key
  cases key <;> rfl

/-- Different names may address one setting, and then the order decides. -/
theorem Settings.override_order_counts :
    (rivals.map Prod.fst).Nodup ∧ rivals.Perm rivals.reverse ∧
      ({} : Settings).override rivals = .ok {} ∧
      ({} : Settings).override rivals.reverse = .ok { logging.debug := true } ∧
      ¬Alike (({} : Settings).override rivals) (({} : Settings).override rivals.reverse) := by
  refine ⟨by decide, (List.reverse_perm rivals).symm, override_rivals, override_rivals_reverse,
    fun alike => ?_⟩
  rw [override_rivals, override_rivals_reverse] at alike
  cases alike

end TableExport
