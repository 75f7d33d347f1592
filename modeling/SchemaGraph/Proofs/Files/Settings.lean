import Mathlib.Tactic.MkIffOfInductiveProp
import SchemaGraph.Proofs.Files.Writing
import SchemaGraph.Proofs.Value.Entries
import SchemaGraph.Settings.Loading

namespace SchemaGraph

/-!
# Settings that a file can hold

A file is accepted if its contents count as false, or are a mapping of known options to texts that
these options take; its settings are then those that the texts stand for, and defaults for the
options that are absent.  Anything else is refused.  What is reported is the first fault: keys that
are no well-formed texts come first, then the options in the order of the fields, then the other
keys in the order given.

All this holds for every parser, and for every library that checks options as
`Validator.Documented` says.

* `Datum.Spells`      — a datum stands for a text
* `Validator.Documented` — what is assumed of a library that checks options
* `Options.Gives`     — a mapping of options gives settings
* `Options.Allowed`   — a mapping of options is accepted
* `Datum.FirstFlaw`   — what is wrong with the contents of a file
* `ExportSettings.load_accepts_exactly` — the files that are accepted, and what is said of others
-/

/-! ### Texts and keys -/

/-- A datum spells a text: it is the text, or bytes of the text. -/
inductive Datum.Spells : Datum → String → Prop
  | text (s : String) : Spells (.value (.str s)) s
  | bytes (s : String) : Spells (.value (.foreign (.bytes s))) s

/-- A text spells itself and nothing else. -/
theorem Datum.spells_str {s t : String} : (Datum.value (.str s)).Spells t ↔ t = s := by
  constructor
  · rintro ⟨⟩
    rfl
  · rintro rfl
    exact .text t

/-- A datum spells at most one text. -/
theorem Datum.Spells.unique {d : Datum} {s t : String} (hs : d.Spells s) (ht : d.Spells t) :
    s = t := by
  cases hs <;> cases ht <;> rfl

/-- A key is one of several names. -/
def Atom.IsAmong (key : Atom) (names : List String) : Prop :=
  ∃ name ∈ names, key = .value (.str name)

/-- A name is a text that is well-formed. -/
theorem Atom.IsAmong.wellFormed {key : Atom} {names : List String} (h : key.IsAmong names) :
    key.isIllFormed = false := by
  obtain ⟨name, -, rfl⟩ := h
  rfl

/-! ### Libraries that check options -/

/-- What is reported first of options: that a key is ill-formed; or the first complaint about what
    stands under names that are known; or, if there is none, the first key that is no such name. -/
inductive Options.ReportedFirst (known : List String) (options : Options) :
    List Complaint → Complaint → Prop
  | illFormedKey {complaints : List Complaint} (h : ∃ e ∈ options, e.1.isIllFormed = true) :
      ReportedFirst known options complaints ⟨[], .illFormedText⟩
  | option {first : Complaint} {rest : List Complaint}
      (hkeys : ∀ e ∈ options, e.1.isIllFormed = false) :
      ReportedFirst known options (first :: rest) first
  | key {before after : Options} {key : Atom} {d : Datum} {fault : Fault}
      (hkeys : ∀ e ∈ options, e.1.isIllFormed = false)
      (horder : options = before ++ (key, d) :: after)
      (hbefore : ∀ e ∈ before, e.1.IsAmong known) (hunknown : ¬ key.IsAmong known) :
      ReportedFirst known options [] ⟨[keyPlace key], fault⟩

/-- What is assumed of a library that checks options. -/
structure Validator.Documented (V : Validator) : Prop where
  /-- A mapping holds its own options. -/
  mapping_ok : ∀ {name d options}, d.options? = some options → V.mapping name d = .ok options
  /-- Nothing but a mapping holds options. -/
  mapping_refused : ∀ {name d}, d.options? = none →
    V.mapping name d = .error ⟨[], .notMapping name⟩
  /-- A datum is taken for the text that it spells. -/
  text_ok : ∀ {d s}, V.text d = .ok s ↔ d.Spells s
  /-- A datum is taken for one of several words if it spells it. -/
  word_ok : ∀ {words d w}, V.word words d = .ok w ↔ w ∈ words ∧ d.Spells w
  /-- Nothing is reported exactly if nothing is wrong under the names that are known, and there is
      no other key. -/
  report_nil : ∀ {known options complaints}, V.report known options complaints = [] ↔
    complaints = [] ∧ ∀ e ∈ options, e.1.IsAmong known
  /-- Complaints about known options come in their order and in front of those about keys. -/
  report_first : ∀ {known options complaints first rest},
    V.report known options complaints = first :: rest →
      options.ReportedFirst known complaints first

section Standard

variable {known : List String} {options : Options} {complaints : List Complaint}
  {first : Complaint} {rest : List Complaint}

/-- Texts are read from the data that spell them. -/
theorem readText_eq_ok {d : Datum} {s : String} : readText d = .ok s ↔ d.Spells s := by
  constructor
  · intro h
    unfold readText at h
    split at h
    · exact Except.ok.inj h ▸ .text _
    · exact Except.ok.inj h ▸ .bytes _
    · cases h
    · cases h
  · rintro (_ | _) <;> rfl

/-- Words are read from the data that spell them. -/
theorem readWord_eq_ok {words : List String} {d : Datum} {w : String} :
    readWord words d = .ok w ↔ w ∈ words ∧ d.Spells w := by
  rw [← readText_eq_ok]
  unfold readWord
  cases htext : readText d with
  | error fault => cases fault <;> simp
  | ok s =>
    dsimp only
    rw [Except.ok.injEq]
    split
    · rename_i hs
      rw [Except.ok.injEq]
      exact ⟨fun h => ⟨h ▸ hs, h⟩, And.right⟩
    · rename_i hs
      exact iff_of_false nofun fun h => hs (h.2 ▸ h.1)

/-- Nothing is wrong with a key exactly if it is one of the names that are known. -/
theorem keyComplaint?_eq_none {key : Atom} :
    keyComplaint? known key = none ↔ key.IsAmong known := by
  unfold keyComplaint? Atom.IsAmong
  split
  · simp
  · rename_i hno
    refine iff_of_false nofun ?_
    rintro ⟨name, -, hname⟩
    exact hno name hname

/-- A complaint about a key names its place. -/
theorem keyComplaint?_place {key : Atom} {c : Complaint} (h : keyComplaint? known key = some c) :
    c.place = [keyPlace key] := by
  unfold keyComplaint? at h
  split at h
  · split at h <;> cases h
    rfl
  · cases h
    rfl

/-- An ill-formed key is all that is reported. -/
theorem reportAll_of_illFormed (h : ∃ e ∈ options, e.1.isIllFormed = true) :
    reportAll known options complaints = [⟨[], .illFormedText⟩] :=
  if_pos (List.any_eq_true.mpr h)

/-- If no key is ill-formed, complaints about keys stand behind the other ones. -/
theorem reportAll_of_wellFormed (h : ∀ e ∈ options, e.1.isIllFormed = false) :
    reportAll known options complaints = complaints ++ unknownKeys known options :=
  if_neg (ne_true_of_eq_false (List.any_eq_false.mpr fun e he => ne_true_of_eq_false (h e he)))

/-- There is no complaint about keys exactly if all of them are known. -/
theorem unknownKeys_eq_nil :
    unknownKeys known options = [] ↔ ∀ e ∈ options, e.1.IsAmong known := by
  unfold unknownKeys
  rw [List.filterMap_eq_nil_iff]
  exact forall₂_congr fun e _ => keyComplaint?_eq_none

/-- The first complaint about keys is about the first one that is not known. -/
theorem reportedFirst_of_unknownKeys (hkeys : ∀ e ∈ options, e.1.isIllFormed = false)
    (h : unknownKeys known options = first :: rest) : options.ReportedFirst known [] first := by
  obtain ⟨before, e, after, horder, hbefore, he, -⟩ := List.filterMap_eq_cons_iff.mp h
  obtain ⟨place, fault⟩ := first
  obtain rfl : place = [keyPlace e.1] := keyComplaint?_place he
  refine .key hkeys horder (fun e he => keyComplaint?_eq_none.mp (hbefore e he)) fun hknown => ?_
  rw [keyComplaint?_eq_none.mpr hknown] at he
  cases he

/-- The usual library does what is assumed of libraries. -/
theorem Validator.standard_documented : Validator.standard.Documented where
  mapping_ok {name d options} h := by
    change readMapping name d = _
    unfold readMapping
    rw [h]
  mapping_refused {name d} h := by
    change readMapping name d = _
    unfold readMapping
    rw [h]
  text_ok := readText_eq_ok
  word_ok := readWord_eq_ok
  report_nil {known options complaints} := by
    change reportAll known options complaints = [] ↔ _
    by_cases hkeys : ∃ e ∈ options, e.1.isIllFormed = true
    · rw [reportAll_of_illFormed hkeys]
      obtain ⟨e, he, hill⟩ := hkeys
      refine iff_of_false nofun fun h => ?_
      rw [(h.2 e he).wellFormed] at hill
      cases hill
    · replace hkeys : ∀ e ∈ options, e.1.isIllFormed = false := by simpa using hkeys
      rw [reportAll_of_wellFormed hkeys, List.append_eq_nil_iff, unknownKeys_eq_nil]
  report_first {known options complaints first rest} h := by
    change reportAll known options complaints = _ at h
    by_cases hkeys : ∃ e ∈ options, e.1.isIllFormed = true
    · rw [reportAll_of_illFormed hkeys] at h
      cases h
      exact .illFormedKey hkeys
    replace hkeys : ∀ e ∈ options, e.1.isIllFormed = false := by simpa using hkeys
    rw [reportAll_of_wellFormed hkeys] at h
    -- a complaint about a key comes first only if there is none about an option
    cases complaints with
    | cons c more =>
      cases h
      exact .option hkeys
    | nil => exact reportedFirst_of_unknownKeys hkeys h

end Standard

/-! ### Words and templates -/

/-- Every alternative is offered, and words tell them apart. -/
class LawfulChoice (α : Type) [Choice α] : Prop where
  mem_all : ∀ a : α, a ∈ (Choice.all : List α)
  word_injective : ∀ {a b : α}, Choice.word a = Choice.word b → a = b

instance : LawfulChoice Target where
  mem_all := by rintro (_ | _) <;> decide
  word_injective := by rintro (_ | _) (_ | _) <;> decide

instance : LawfulChoice Unrepresentable where
  mem_all := by rintro (_ | _) <;> decide
  word_injective := by rintro (_ | _) (_ | _) <;> decide

instance : LawfulChoice Side where
  mem_all := by rintro (_ | _) <;> decide
  word_injective := by rintro (_ | _) (_ | _) <;> decide

instance : LawfulChoice CyclePolicy where
  mem_all := by rintro (_ | _) <;> decide
  word_injective := by rintro (_ | _) (_ | _) <;> decide

instance : LawfulChoice ReusePolicy where
  mem_all := by rintro (_ | _) <;> decide
  word_injective := by rintro (_ | _) (_ | _) <;> decide

section Reading

variable {V : Validator} (hV : V.Documented) {d : Datum}

include hV

/-- The word of an alternative is what is read as it. -/
theorem Validator.Documented.choice_ok {α : Type} [Choice α] [LawfulChoice α] {a : α} :
    V.choice d = .ok a ↔ d.Spells (Choice.word a) := by
  have hword : Choice.word a ∈ (Choice.all : List α).map Choice.word :=
    List.mem_map_of_mem (LawfulChoice.mem_all a)
  unfold choice
  dsimp only
  cases hread : V.word ((Choice.all : List α).map Choice.word) d with
  | error fault =>
    refine iff_of_false nofun fun h => ?_
    rw [hV.word_ok.mpr ⟨hword, h⟩] at hread
    cases hread
  | ok w =>
    obtain ⟨hw, hspells⟩ := hV.word_ok.mp hread
    -- some alternative has this word, and it is the only one
    obtain ⟨b, hb, hbw⟩ := List.mem_map.mp hw
    have hsome : ((Choice.all : List α).find? fun c => Choice.word c = w).isSome := by
      rw [List.find?_isSome]
      exact ⟨b, hb, by simpa using hbw⟩
    obtain ⟨c, hfind⟩ := Option.isSome_iff_exists.mp hsome
    have hc : Choice.word c = w := by simpa using List.find?_some hfind
    dsimp only
    rw [hfind, Except.ok.injEq]
    constructor
    · rintro rfl
      rwa [hc]
    · intro h
      exact LawfulChoice.word_injective (hc.trans (hspells.unique h))

omit hV in
/-- A text has a place for the id if the sign for it stands somewhere in the text. -/
theorem hasPlaceholder_iff {cs : List Char} :
    hasPlaceholder cs = true ↔ ['\x7b', 'i', 'd', '\x7d'] <:+: cs := by
  induction cs using hasPlaceholder.induct with
  | case1 rest => exact iff_of_true rfl ⟨[], rest, rfl⟩
  | case2 c rest hno ih =>
    have hnot : ¬ ['\x7b', 'i', 'd', '\x7d'] <+: c :: rest := by
      rintro ⟨more, hmore⟩
      exact hno more (List.cons.inj hmore.symm).1 (List.cons.inj hmore.symm).2
    rw [hasPlaceholder, ih, List.infix_cons_iff, or_iff_right hnot]
    -- the equation of this case asks for the same again
    exact hno
  | case3 => decide

/-- The templates that settings accept are the texts with a place for the id. -/
theorem Validator.Documented.template_ok {t : UriTemplate} :
    V.template d = .ok t ↔ d.Spells t.text := by
  -- A template has a place for the id, so its text is not empty.
  have hne : t.text ≠ "" := fun hempty => by
    have hplace := t.holdsPlace
    rw [hempty] at hplace
    cases hplace
  rw [← hV.text_ok]
  unfold template
  cases htext : V.text d with
  | error fault => exact iff_of_false nofun nofun
  | ok s =>
    rw [Except.ok.injEq]
    change (if s = "" then .error Fault.emptyText
      else if h : hasPlaceholder s.toList = true then .ok ⟨s, h⟩
      else .error Fault.noPlaceholder) = Except.ok t ↔ s = t.text
    constructor
    · intro h
      split at h
      · cases h
      · split at h
        · rw [← Except.ok.inj h]
        · cases h
    · rintro rfl
      rw [if_neg hne, dif_pos t.holdsPlace]

end Reading

/-- The values that are templates are the texts with a place for the id. -/
theorem readTemplate_spells {v : Value} {t : UriTemplate} :
    readTemplate v = .ok t ↔ (Datum.value v).Spells t.text :=
  Validator.standard_documented.template_ok

/-! ### Options -/

/-- An option of a mapping has a setting: its datum spells what stands for the setting, or it is
    absent and the setting is the default. -/
def Options.Sets {α : Type} (options : Options) (name : String) (spelling : α → String)
    (default setting : α) : Prop :=
  match options.get? name with
  | none => setting = default
  | some d => d.Spells (spelling setting)

/-- A text is one that the option of a name takes. -/
@[mk_iff]
inductive ExportSettings.Takes : String → String → Prop
  | target (a : Target) : Takes "target" (Choice.word a)
  | unrepresentable (a : Unrepresentable) : Takes "unrepresentable" (Choice.word a)
  | side (a : Side) : Takes "io" (Choice.word a)
  | cycles (a : CyclePolicy) : Takes "cycles" (Choice.word a)
  | reused (a : ReusePolicy) : Takes "reused" (Choice.word a)
  | template {text : String} (h : "\x7bid\x7d".toList <:+: text.toList) : Takes "uri_template" text

/-- An option of a mapping is absent, or its datum spells a text that it takes. -/
def Options.Accepts (options : Options) (name : String) : Prop :=
  ∀ d, options.get? name = some d → ∃ text, d.Spells text ∧ ExportSettings.Takes name text

/-- A key is the name of an option. -/
def Atom.NamesOption (key : Atom) : Prop := key.IsAmong ExportSettings.optionNames

/-- A mapping of options gives settings. -/
structure Options.Gives (options : Options) (s : ExportSettings) : Prop where
  known : ∀ e ∈ options, e.1.NamesOption
  target : options.Sets "target" Choice.word .draft2020 s.lowering.target
  unrepresentable : options.Sets "unrepresentable" Choice.word .reject s.lowering.unrepresentable
  side : options.Sets "io" Choice.word .output s.lowering.side
  cycles : options.Sets "cycles" Choice.word .refer s.emission.cycles
  reused : options.Sets "reused" Choice.word .inline s.emission.reused
  template : options.Sets "uri_template" UriTemplate.text .bare s.uriTemplate

/-- A mapping has known options only, each with a datum that it takes. -/
structure Options.Allowed (options : Options) : Prop where
  known : ∀ e ∈ options, e.1.NamesOption
  accepted : ∀ name ∈ ExportSettings.optionNames, options.Accepts name

/-- The first thing that is wrong with options. -/
inductive Options.FirstFlaw (options : Options) : Complaint → Prop
  | illFormedKey (h : ∃ e ∈ options, e.1.isIllFormed = true) :
      FirstFlaw options ⟨[], .illFormedText⟩
  | refusedOption {before after : List String} {name : String} {fault : Fault}
      (hkeys : ∀ e ∈ options, e.1.isIllFormed = false)
      (horder : ExportSettings.optionNames = before ++ name :: after)
      (hbefore : ∀ n ∈ before, options.Accepts n) (hrefused : ¬ options.Accepts name) :
      FirstFlaw options ⟨[.name name], fault⟩
  | unknownKey {before after : Options} {key : Atom} {d : Datum} {fault : Fault}
      (hkeys : ∀ e ∈ options, e.1.isIllFormed = false)
      (hoptions : ∀ n ∈ ExportSettings.optionNames, options.Accepts n)
      (horder : options = before ++ (key, d) :: after)
      (hbefore : ∀ e ∈ before, e.1.NamesOption) (hunknown : ¬ key.NamesOption) :
      FirstFlaw options ⟨[keyPlace key], fault⟩

section Options

variable {options : Options} {c : Complaint}

section OneOption

variable {α : Type} {name : String} {default setting : α} {spelling : α → String}
  {read : Datum → Except Fault α}

/-- An option is read as the setting that it has. -/
theorem readOption_sets (hread : ∀ {d a}, read d = .ok a ↔ d.Spells (spelling a)) :
    (readOption options name default read).complaint? = none ∧
        (readOption options name default read).value = setting ↔
      options.Sets name spelling default setting := by
  unfold readOption Options.Sets
  cases hget : options.get? name with
  | none => simp [eq_comm]
  | some d =>
    dsimp only
    rw [← hread]
    cases hd : read d <;> simp

/-- Nothing is said about an option exactly if it is absent or its datum is taken. -/
theorem readOption_accepts (hread : ∀ {d a}, read d = .ok a ↔ d.Spells (spelling a))
    (htakes : ∀ text, ExportSettings.Takes name text ↔ ∃ a, spelling a = text) :
    (readOption options name default read).complaint? = none ↔ options.Accepts name := by
  unfold readOption Options.Accepts
  cases hget : options.get? name with
  | none => simp
  | some d =>
    have hsome : (∃ a, read d = .ok a) ↔ ∃ text, d.Spells text ∧ ExportSettings.Takes name text := by
      simp only [hread, htakes]
      constructor
      · rintro ⟨a, ha⟩
        exact ⟨_, ha, a, rfl⟩
      · rintro ⟨_, ha, a, rfl⟩
        exact ⟨a, ha⟩
    simp only [Option.some.injEq, forall_eq', ← hsome]
    cases hd : read d <;> simp

/-- What is said about an option names it. -/
theorem readOption_place (h : (readOption options name default read).complaint? = some c) :
    c.place = [.name name] := by
  unfold readOption at h
  split at h
  · cases h
  · split at h <;> cases h
    rfl

end OneOption

namespace ExportSettings

variable {V : Validator} {s : ExportSettings}

/-- What is said about each option, in the order of the fields. -/
def verdicts (V : Validator) (options : Options) : List (String × Option Complaint) :=
  [("target", (readOption options "target" Target.draft2020 V.choice).complaint?),
    ("unrepresentable",
      (readOption options "unrepresentable" Unrepresentable.reject V.choice).complaint?),
    ("io", (readOption options "io" Side.output V.choice).complaint?),
    ("cycles", (readOption options "cycles" CyclePolicy.refer V.choice).complaint?),
    ("reused", (readOption options "reused" ReusePolicy.inline V.choice).complaint?),
    ("uri_template", (readOption options "uri_template" UriTemplate.bare V.template).complaint?)]

/-- The complaints about the fields are the verdicts that are none of acceptance. -/
theorem fields_complaints (V : Validator) (options : Options) :
    (fields V options).2 = (verdicts V options).filterMap (·.2) := by
  unfold fields LoweringSettings.fields EmissionSettings.fields
  dsimp only
  rw [← List.filterMap_append, ← List.filterMap_append]
  rfl

/-- Settings are read exactly if nothing is reported; they are those of the fields. -/
theorem readBy_eq_ok_iff_report : readBy V options = .ok s ↔
    V.report optionNames options ((verdicts V options).filterMap (·.2)) = [] ∧
      (fields V options).1 = s := by
  rw [← fields_complaints]
  unfold readBy readSettings
  dsimp only
  cases V.report optionNames options (fields V options).2 <;> simp

/-- Settings are refused exactly if something is reported, and with just that. -/
theorem readBy_eq_error_iff_report {complaints : List Complaint} :
    readBy V options = .error complaints ↔
      V.report optionNames options ((verdicts V options).filterMap (·.2)) = complaints ∧
        complaints ≠ [] := by
  rw [← fields_complaints]
  unfold readBy readSettings
  dsimp only
  cases V.report optionNames options (fields V options).2 with
  | nil => simp
  | cons first rest =>
    simp only [List.isEmpty_cons, Bool.false_eq_true, if_false, Except.error.injEq]
    exact ⟨fun h => ⟨h, h ▸ List.cons_ne_nil _ _⟩, And.left⟩

/-- The names in the verdicts are those of the options, in the order of the fields. -/
theorem map_verdicts (V : Validator) (options : Options) :
    (verdicts V options).map (·.1) = optionNames := rfl

section Documented

variable (hV : V.Documented)

include hV

/-- A verdict is about an option, by its name; it is none if the option is accepted. -/
theorem verdicts_spec {p : String × Option Complaint} (hp : p ∈ verdicts V options) :
    (p.2 = none ↔ options.Accepts p.1) ∧ ∀ c, p.2 = some c → c.place = [.name p.1] := by
  simp only [verdicts, List.mem_cons, List.not_mem_nil, or_false] at hp
  obtain rfl | rfl | rfl | rfl | rfl | rfl := hp
  all_goals refine ⟨?_, fun c h => readOption_place h⟩
  · exact readOption_accepts hV.choice_ok (by simp [takes_iff, eq_comm])
  · exact readOption_accepts hV.choice_ok (by simp [takes_iff, eq_comm])
  · exact readOption_accepts hV.choice_ok (by simp [takes_iff, eq_comm])
  · exact readOption_accepts hV.choice_ok (by simp [takes_iff, eq_comm])
  · exact readOption_accepts hV.choice_ok (by simp [takes_iff, eq_comm])
  · refine readOption_accepts hV.template_ok fun text => ?_
    have htext : (∃ t : UriTemplate, t.text = text) ↔ "\x7bid\x7d".toList <:+: text.toList := by
      constructor
      · rintro ⟨t, rfl⟩
        exact hasPlaceholder_iff.mp t.holdsPlace
      · exact fun h => ⟨⟨text, hasPlaceholder_iff.mpr h⟩, rfl⟩
    rw [htext]
    simp [takes_iff]

/-- There is no complaint about an option exactly if all options are accepted. -/
theorem verdicts_eq_nil :
    (verdicts V options).filterMap (·.2) = [] ↔ ∀ name ∈ optionNames, options.Accepts name := by
  rw [← map_verdicts V options, List.forall_mem_map, List.filterMap_eq_nil_iff]
  exact forall₂_congr fun p hp => (verdicts_spec hV hp).1

/-- Options are read exactly if they are allowed. -/
theorem readBy_eq_ok_iff_allowed :
    readBy V options = .ok s ↔ options.Allowed ∧ (fields V options).1 = s := by
  rw [readBy_eq_ok_iff_report, hV.report_nil, verdicts_eq_nil hV]
  exact and_congr_left fun _ => ⟨fun ⟨haccepted, hknown⟩ => ⟨hknown, haccepted⟩,
    fun ⟨hknown, haccepted⟩ => ⟨haccepted, hknown⟩⟩

/-- The settings that are read are those that the options give. -/
theorem readBy_eq_ok : readBy V options = .ok s ↔ options.Gives s := by
  rw [readBy_eq_ok_iff_allowed hV]
  constructor
  · rintro ⟨⟨hknown, haccepted⟩, rfl⟩
    -- Every option is judged in the list, each with its own name.
    have hnone : ∀ p ∈ verdicts V options, p.2 = none :=
      List.filterMap_eq_nil_iff.mp ((verdicts_eq_nil hV).mpr haccepted)
    exact
      { known := hknown
        target := (readOption_sets hV.choice_ok).mp ⟨hnone ("target", _) (by simp [verdicts]), rfl⟩
        unrepresentable := (readOption_sets hV.choice_ok).mp
          ⟨hnone ("unrepresentable", _) (by simp [verdicts]), rfl⟩
        side := (readOption_sets hV.choice_ok).mp ⟨hnone ("io", _) (by simp [verdicts]), rfl⟩
        cycles := (readOption_sets hV.choice_ok).mp ⟨hnone ("cycles", _) (by simp [verdicts]), rfl⟩
        reused := (readOption_sets hV.choice_ok).mp ⟨hnone ("reused", _) (by simp [verdicts]), rfl⟩
        template := (readOption_sets hV.template_ok).mp
          ⟨hnone ("uri_template", _) (by simp [verdicts]), rfl⟩ }
  · intro h
    obtain ⟨htarget, htarget'⟩ := (readOption_sets hV.choice_ok).mpr h.target
    obtain ⟨hrepr, hrepr'⟩ := (readOption_sets hV.choice_ok).mpr h.unrepresentable
    obtain ⟨hside, hside'⟩ := (readOption_sets hV.choice_ok).mpr h.side
    obtain ⟨hcycles, hcycles'⟩ := (readOption_sets hV.choice_ok).mpr h.cycles
    obtain ⟨hreused, hreused'⟩ := (readOption_sets hV.choice_ok).mpr h.reused
    obtain ⟨htemplate, htemplate'⟩ := (readOption_sets hV.template_ok).mpr h.template
    refine ⟨⟨h.known, (verdicts_eq_nil hV).mp ?_⟩, ?_⟩
    · simp [verdicts, htarget, hrepr, hside, hcycles, hreused, htemplate]
    · simp only [fields, LoweringSettings.fields, EmissionSettings.fields, htarget', hrepr', hside',
        hcycles', hreused', htemplate']

/-- Options give some settings exactly if they are allowed. -/
theorem exists_gives : (∃ s, options.Gives s) ↔ options.Allowed := by
  constructor
  · rintro ⟨s, hs⟩
    exact ((readBy_eq_ok_iff_allowed hV).mp ((readBy_eq_ok hV).mpr hs)).1
  · intro h
    exact ⟨_, (readBy_eq_ok hV).mp ((readBy_eq_ok_iff_allowed hV).mpr ⟨h, rfl⟩)⟩

/-- The first complaint about options is about the first option that is refused. -/
theorem firstFlaw_of_verdicts {first : Complaint} {rest : List Complaint}
    (hkeys : ∀ e ∈ options, e.1.isIllFormed = false)
    (h : (verdicts V options).filterMap (·.2) = first :: rest) : options.FirstFlaw first := by
  obtain ⟨before, p, after, horder, hbefore, hp, -⟩ := List.filterMap_eq_cons_iff.mp h
  have hmem : p ∈ verdicts V options := by simp [horder]
  obtain ⟨place, fault⟩ := first
  obtain rfl : place = [.name p.1] := (verdicts_spec hV hmem).2 _ hp
  have hnames : optionNames = before.map (·.1) ++ p.1 :: after.map (·.1) := by
    rw [← map_verdicts V options, horder, List.map_append, List.map_cons]
  refine .refusedOption hkeys hnames ?_ ?_
  · refine List.forall_mem_map.mpr fun q hq => ?_
    exact (verdicts_spec hV (by simp [horder, hq])).1.mp (hbefore q hq)
  · intro haccepts
    rw [(verdicts_spec hV hmem).1.mpr haccepts] at hp
    cases hp

/-- What is reported first of options is their first flaw. -/
theorem firstFlaw_of_reported {complaints : List Complaint} {first : Complaint}
    (h : options.ReportedFirst optionNames complaints first)
    (hcomplaints : (verdicts V options).filterMap (·.2) = complaints) :
    options.FirstFlaw first := by
  cases h with
  | illFormedKey h => exact .illFormedKey h
  | option hkeys => exact firstFlaw_of_verdicts hV hkeys hcomplaints
  | key hkeys horder hbefore hunknown =>
    exact .unknownKey hkeys ((verdicts_eq_nil hV).mp hcomplaints) horder hbefore hunknown

/-- Options that are not read have a first flaw, and that is what is reported first. -/
theorem readBy_eq_error {complaints : List Complaint} (h : readBy V options = .error complaints) :
    ∃ first rest, complaints = first :: rest ∧ options.FirstFlaw first := by
  obtain ⟨hreport, hne⟩ := readBy_eq_error_iff_report.mp h
  obtain ⟨first, rest, rfl⟩ := List.exists_cons_of_ne_nil hne
  exact ⟨first, rest, rfl, firstFlaw_of_reported hV (hV.report_first hreport) rfl⟩

end Documented

/-- No options give the defaults. -/
theorem gives_nil : Options.Gives [] s ↔ s = {} := by
  rw [← readBy_eq_ok Validator.standard_documented]
  exact ⟨fun h => (Except.ok.inj h).symm, fun h => h ▸ rfl⟩

end ExportSettings

end Options

/-! ### Mappings without merging -/

namespace Yaml

/-- Of entries without the sign for merging none is taken over. -/
theorem splitEntries_of_not_merge {entries : List (Node × Node)}
    (h : ∀ e ∈ entries, e.1.isMerge = false) : splitEntries entries = .ok ([], entries) := by
  induction entries with
  | nil => unfold splitEntries; rfl
  | cons e rest ih =>
    obtain ⟨he, hrest⟩ := List.forall_mem_cons.mp h
    unfold splitEntries
    rw [he, ih hrest]
    rfl

/-- A mapping without the sign for merging keeps its entries. -/
theorem mergedEntries_of_not_merge {entries : List (Node × Node)}
    (h : ∀ e ∈ entries, e.1.isMerge = false) : mergedEntries entries = .ok entries := by
  cases entries with
  | nil => unfold mergedEntries; rfl
  | cons e rest =>
    unfold mergedEntries
    rw [splitEntries_of_not_merge h]
    rfl

/-- The tree of a file with one option. -/
def targetNode : Node := .mapping [(.scalar (.plain "target") 0, .scalar (.plain "draft-7") 0)] 0

/-- What a file with one option holds. -/
def targetOptions : Options := [(.value (.str "target"), .value (.str "draft-7"))]

/-- A file with one option is a mapping with this option. -/
theorem read_target : Yaml.read "target: draft-7\n" = .ok (.dict targetOptions) := by
  have htokens : Token.ofText (unifyBreaks "target: draft-7\n".toList) =
      [⟨.blockMapping, 0⟩, ⟨.key, 0⟩, ⟨.scalar (.plain "target"), 0⟩, ⟨.value, 0⟩,
        ⟨.scalar (.plain "draft-7"), 0⟩, ⟨.blockEnd, 1⟩, ⟨.streamEnd, 1⟩] := by decide +kernel
  have hmerged : mergedEntries [(.scalar (.plain "target") 0, .scalar (.plain "draft-7") 0)] =
      .ok [(.scalar (.plain "target") 0, .scalar (.plain "draft-7") 0)] :=
    mergedEntries_of_not_merge (by decide)
  -- nothing is wrong with the tree, level by level
  have hinside : targetNode.inside = .ok [] := by
    unfold targetNode Node.inside
    dsimp only
    rw [hmerged]
    rfl
  have hcheck : targetNode.check = .ok () := by
    change checkLevels 2 [targetNode] = _
    unfold checkLevels insides
    rw [hinside]
    rfl
  have hdatum : targetNode.datumWithin 1 = .ok (.dict targetOptions) := by
    unfold targetNode Node.datumWithin
    rw [hmerged]
    rfl
  unfold Yaml.read
  rw [htokens]
  change targetNode.datum = _
  unfold Node.datum
  rw [hcheck]
  exact hdatum

end Yaml

/-! ### Contents of files -/

/-- The first thing that is wrong with the contents of a file. -/
inductive Datum.FirstFlaw (d : Datum) : Complaint → Prop
  | notMapping (h : d.options? = none) : FirstFlaw d ⟨[], .notMapping "ExportConfig"⟩
  | options {options : Options} {c : Complaint} (h : d.options? = some options)
      (hflaw : options.FirstFlaw c) : FirstFlaw d c

/-- A mapping that counts as false has no options. -/
theorem Datum.options_of_falsy {d : Datum} {options : Options} (h : d.isTruthy = false)
    (hoptions : d.options? = some options) : options = [] := by
  unfold Datum.options? at hoptions
  split at hoptions
  · cases hoptions
    simpa [Datum.isTruthy] using h
  · cases hoptions
    simpa [Datum.isTruthy, Value.isTruthy, Options.ofEntries] using h
  · cases h
  · cases hoptions

namespace ExportSettings

variable {V : Validator} {d : Datum} {s : ExportSettings}

section Documented

variable (hV : V.Documented)

include hV

/-- What counts as false is read as no options. -/
theorem ofDatum_of_falsy (h : d.isTruthy = false) : ofDatum V d = readBy V [] := by
  have hmapping : V.mapping "ExportConfig" (.dict []) = .ok [] := hV.mapping_ok rfl
  unfold ofDatum
  rw [h, if_neg Bool.false_ne_true, hmapping]

/-- A mapping that counts as true is read as its options. -/
theorem ofDatum_of_options {options : Options} (h : d.isTruthy = true)
    (hoptions : d.options? = some options) : ofDatum V d = readBy V options := by
  unfold ofDatum
  rw [if_pos h, hV.mapping_ok hoptions]

/-- Whatever else counts as true is refused as a whole. -/
theorem ofDatum_of_no_options (h : d.isTruthy = true) (hoptions : d.options? = none) :
    ofDatum V d = .error [⟨[], .notMapping "ExportConfig"⟩] := by
  unfold ofDatum
  rw [if_pos h, hV.mapping_refused hoptions]

/-- The settings in a datum are the defaults if it counts as false, else what its options give. -/
theorem ofDatum_eq_ok : ofDatum V d = .ok s ↔
    d.isTruthy = false ∧ s = {} ∨ ∃ options, d.options? = some options ∧ options.Gives s := by
  cases htruthy : d.isTruthy with
  | false =>
    rw [ofDatum_of_falsy hV htruthy, readBy_eq_ok hV, gives_nil]
    constructor
    · exact fun h => .inl ⟨rfl, h⟩
    · rintro (⟨-, h⟩ | ⟨options, hoptions, hgives⟩)
      · exact h
      -- A mapping that counts as false is the empty one, and gives the defaults.
      · rw [Datum.options_of_falsy htruthy hoptions] at hgives
        exact gives_nil.mp hgives
  | true =>
    simp only [Bool.true_eq_false, false_and, false_or]
    cases hoptions : d.options? with
    | none =>
      rw [ofDatum_of_no_options hV htruthy hoptions]
      exact iff_of_false nofun nofun
    | some options =>
      rw [ofDatum_of_options hV htruthy hoptions, readBy_eq_ok hV]
      constructor
      · exact fun h => ⟨options, rfl, h⟩
      · rintro ⟨_, ⟨⟩, h⟩
        exact h

/-- What is refused has a first flaw, and that is what is reported first. -/
theorem ofDatum_eq_error {complaints : List Complaint} (h : ofDatum V d = .error complaints) :
    ∃ first rest, complaints = first :: rest ∧ d.FirstFlaw first := by
  cases htruthy : d.isTruthy with
  | false =>
    rw [ofDatum_of_falsy hV htruthy, (readBy_eq_ok hV).mpr (gives_nil.mpr rfl)] at h
    cases h
  | true =>
    cases hoptions : d.options? with
    | none =>
      rw [ofDatum_of_no_options hV htruthy hoptions] at h
      cases h
      exact ⟨_, [], rfl, .notMapping hoptions⟩
    | some options =>
      rw [ofDatum_of_options hV htruthy hoptions] at h
      obtain ⟨first, rest, rfl, hflaw⟩ := readBy_eq_error hV h
      exact ⟨first, rest, rfl, .options hoptions hflaw⟩

end Documented

/-- What a file holds decides what is loaded. -/
theorem loadBy_eq_ofDatum {parser : Parser} {folder : Folder} {path text : String}
    (hfile : folder.look (.ofText path) = .ok (some (.file text)))
    (hparse : parser.read text = .ok d) :
    loadBy parser V folder path = (ofDatum V d).mapError (invalidFile V path) := by
  unfold loadBy
  simp only [hfile, hparse]

/-- **Files of settings.** Whatever parser makes a datum of the text of a file, and whatever library
    checks options as documented: settings are loaded exactly if the datum counts as false, or is a
    mapping of known options to texts that these options take.  They are then the settings that the
    mapping gives, and defaults for all else.  Every other datum is refused, with a failure that
    names the file and tells the first flaw. -/
theorem load_accepts_exactly (parser : Parser) (V : Validator) (hV : V.Documented) (folder : Folder)
    (path : String) {text : String} {d : Datum}
    (hfile : folder.look (.ofText path) = .ok (some (.file text)))
    (hparse : parser.read text = .ok d) :
    (∀ s, loadBy parser V folder path = .ok s ↔
        d.isTruthy = false ∧ s = {} ∨ ∃ options, d.options? = some options ∧ options.Gives s) ∧
      ((∃ s, loadBy parser V folder path = .ok s) ↔
        d.isTruthy = false ∨ ∃ options, d.options? = some options ∧ options.Allowed) ∧
      (∀ f, loadBy parser V folder path = .error f →
        ∃ first rest, d.FirstFlaw first ∧ ofDatum V d = .error (first :: rest) ∧
          f = .configuration ("Invalid configuration: " ++ first.fault.message) path
            (if first.field = "" then none else some first.field) none
            (V.explain (first :: rest))) ∧
      (d.isTruthy = true → d.options? = none →
        loadBy parser V folder path =
          .error (.configuration
            "Invalid configuration: Input should be a valid dictionary or instance of ExportConfig"
            path none none (V.explain [⟨[], .notMapping "ExportConfig"⟩]))) := by
  rw [loadBy_eq_ofDatum hfile hparse]
  -- The file only adds its path and the wording to what the content is refused for.
  have haccepts : ∀ s, (ofDatum V d).mapError (invalidFile V path) = .ok s ↔
      d.isTruthy = false ∧ s = {} ∨ ∃ options, d.options? = some options ∧ options.Gives s :=
    fun s => mapError_eq_ok.trans (ofDatum_eq_ok hV)
  refine ⟨haccepts, ?_, fun f hf => ?_, fun htruthy hoptions => ?_⟩
  · constructor
    · rintro ⟨s, hs⟩
      obtain ⟨hfalsy, -⟩ | ⟨options, hd, hgives⟩ := (haccepts s).mp hs
      · exact .inl hfalsy
      · exact .inr ⟨options, hd, (exists_gives hV).mp ⟨s, hgives⟩⟩
    · rintro (hfalsy | ⟨options, hd, hallowed⟩)
      · exact ⟨{}, (haccepts _).mpr (.inl ⟨hfalsy, rfl⟩)⟩
      · obtain ⟨s, hgives⟩ := (exists_gives hV).mpr hallowed
        exact ⟨s, (haccepts s).mpr (.inr ⟨options, hd, hgives⟩)⟩
  · cases hdatum : ofDatum V d with
    | ok s =>
      rw [hdatum] at hf
      cases hf
    | error complaints =>
      obtain ⟨first, rest, rfl, hflaw⟩ := ofDatum_eq_error hV hdatum
      rw [hdatum] at hf
      cases hf
      exact ⟨first, rest, hflaw, rfl, rfl⟩
  · rw [ofDatum_of_no_options hV htruthy hoptions]
    rfl

/-- A folder with a file of settings. -/
def folderHolding (text : String) : Folder := { files := [⟨["jsonshape.yaml"], text⟩] }

/-- A file with one option gives it, and defaults for the others; a file that is a truth value and
    counts as true is refused. -/
theorem load_accepts_exactly_target :
    load (folderHolding "target: draft-7\n") "jsonshape.yaml" =
        .ok { lowering := { target := .draft7 } } ∧
      load (folderHolding "true\n") "jsonshape.yaml" =
        .error (.configuration
          "Invalid configuration: Input should be a valid dictionary or instance of ExportConfig"
          "jsonshape.yaml" none none none) := by
  have hV := Validator.standard_documented
  have htrue : Yaml.read "true\n" = .ok (.value (.bool true)) := by rfl
  constructor
  · refine ((load_accepts_exactly Yaml.parser .standard hV (folderHolding _) "jsonshape.yaml" rfl
      Yaml.read_target).1 _).mpr (.inr ⟨Yaml.targetOptions, rfl, (readBy_eq_ok hV).mp ?_⟩)
    rfl
  · exact (load_accepts_exactly Yaml.parser .standard hV (folderHolding _) "jsonshape.yaml" rfl
      htrue).2.2.2 rfl rfl

/-- A file that holds neither nothing nor a mapping is accepted, as its datum counts as false. -/
theorem load_not_null_nor_mapping :
    Yaml.read "false\n" = .ok (.value (.bool false)) ∧
      load (folderHolding "false\n") "jsonshape.yaml" = .ok {} ∧
      Datum.value (.bool false) ≠ .value .null ∧ (Datum.value (.bool false)).options? = none := by
  have hread : Yaml.read "false\n" = .ok (.value (.bool false)) := by rfl
  refine ⟨hread, ?_, nofun, rfl⟩
  change loadBy Yaml.parser _ _ _ = _
  rw [loadBy_eq_ofDatum (show (folderHolding "false\n").look _ = _ from rfl) hread]
  rfl

end ExportSettings

end SchemaGraph
