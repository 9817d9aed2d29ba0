/-
Which values the settings of a run are made of.

`Condition` says what is asked of settings, one condition for each check, and `conditions`
lists them for the values that were chosen.  Settings are refused for the first of them that
does not hold.  Of the settings file only those values enter the list and the settings that
the command line leaves open, and so nothing else of it can matter.
-/
import OntologyModel.Proofs.Json.Rereading
import OntologyModel.Settings.Resolution

namespace OntologyModel
namespace Settings

/-! ## Conditions -/

inductive Condition where
  | inputGiven (input : Option String)
  | inputExists (path : String)
  | inputIsFile (path : String)
  | namespaceClosed (iri : String)
  | contextIsFile (path : String)
  | bindingNamed (b : Binding)
  | bindingBound (b : Binding)
deriving DecidableEq, Repr

namespace Condition

def Holds (files : Files) : Condition → Prop
  | .inputGiven input => input ≠ none
  | .inputExists path => files.hasEntry path = true
  | .inputIsFile path => files.hasFile path = true
  | .namespaceClosed iri => ∃ stem, iri = stem ++ "#" ∨ iri = stem ++ "/"
  | .contextIsFile path => files.hasFile path = true
  | .bindingNamed b => b.name ≠ ""
  | .bindingBound b => b.iri ≠ ""

def fault : Condition → SettingsError
  | .inputGiven _ => .noInput
  | .inputExists path => .missingInput path
  | .inputIsFile path => .inputNoFile path
  | .namespaceClosed iri => .openNamespace iri
  | .contextIsFile path => .contextNoFile path
  | .bindingNamed b => .emptyName b.iri
  | .bindingBound b => .emptyIri b.name

def ofInput (path : String) : List Condition := [.inputExists path, .inputIsFile path]

def ofBinding (b : Binding) : List Condition := [.bindingNamed b, .bindingBound b]

end Condition

inductive FirstUnmet (files : Files) : List Condition → Condition → Prop where
  | here {x : Condition} {rest : List Condition} (hx : ¬x.Holds files) :
      FirstUnmet files (x :: rest) x
  | later {x y : Condition} {rest : List Condition} (hx : x.Holds files)
      (hy : FirstUnmet files rest y) : FirstUnmet files (x :: rest) y

/-- What is told of a list of conditions: the fault of the first that does not hold, or none. -/
def Reports (files : Files) (l : List Condition) : Option SettingsError → Prop
  | none => ∀ x ∈ l, x.Holds files
  | some e => ∃ x, FirstUnmet files l x ∧ e = x.fault

section

variable {files : Files} {l l' : List Condition} {x y : Condition} {e : SettingsError}
  {r r' : Option SettingsError}

theorem FirstUnmet.unique (hx : FirstUnmet files l x) (hy : FirstUnmet files l y) : x = y := by
  induction hx with
  | here hno =>
    cases hy with
    | here _ => rfl
    | later h _ => exact absurd h hno
  | later h _ ih =>
    cases hy with
    | here hno => exact absurd h hno
    | later _ hy => exact ih hy

theorem FirstUnmet.mem (hx : FirstUnmet files l x) : x ∈ l ∧ ¬x.Holds files := by
  induction hx with
  | here hno => exact ⟨List.mem_cons_self, hno⟩
  | later _ _ ih => exact ⟨List.mem_cons_of_mem _ ih.1, ih.2⟩

theorem FirstUnmet.append (hx : FirstUnmet files l x) (l' : List Condition) :
    FirstUnmet files (l ++ l') x := by
  induction hx with
  | here hno => exact .here hno
  | later h _ ih => exact .later h ih

theorem FirstUnmet.of_append (hl : ∀ y ∈ l, y.Holds files) (hx : FirstUnmet files l' x) :
    FirstUnmet files (l ++ l') x := by
  induction l with
  | nil => exact hx
  | cons y l ih =>
    obtain ⟨hy, hrest⟩ := List.forall_mem_cons.1 hl
    exact .later hy (ih hrest)

theorem Reports.append (h : Reports files l r) (h' : Reports files l' r') :
    Reports files (l ++ l') (r.or r') := by
  cases r with
  | some e =>
    obtain ⟨x, hx, he⟩ := h
    exact ⟨x, hx.append l', he⟩
  | none =>
    cases r' with
    | none => exact List.forall_mem_append.2 ⟨h, h'⟩
    | some e =>
      obtain ⟨x, hx, he⟩ := h'
      exact ⟨x, .of_append h hx, he⟩

theorem reports_check {b : Bool} (hb : b = true ↔ x.Holds files) :
    Reports files [x] (if b then none else some x.fault) := by
  cases b with
  | true => exact List.forall_mem_singleton.2 (hb.1 rfl)
  | false => exact ⟨x, .here (mt hb.2 Bool.false_ne_true), rfl⟩

end

/-! ## Checks -/

theorem isClosed_iff {iri : String} :
    isClosed iri = true ↔ ∃ stem, iri = stem ++ "#" ∨ iri = stem ++ "/" := by
  have hlast (c : Char) :
      iri.toList.getLast? = some c ↔ ∃ stem, iri = stem ++ String.singleton c := by
    rw [List.getLast?_eq_some_iff]
    constructor
    · intro hex
      obtain ⟨front, hfront⟩ := hex
      refine ⟨String.ofList front, String.toList_inj.1 ?_⟩
      rw [hfront, String.toList_append, String.toList_ofList, String.toList_singleton]
    · intro hex
      obtain ⟨stem, rfl⟩ := hex
      exact ⟨stem.toList, by rw [String.toList_append, String.toList_singleton]⟩
  rw [isClosed, Bool.or_eq_true, decide_eq_true_iff, decide_eq_true_iff, hlast, hlast, exists_or]
  rfl

variable (files : Files)

theorem reports_inputFault? (path : String) :
    Reports files (Condition.ofInput path) (inputFault? files path) := by
  have hfault : inputFault? files path =
      (if files.hasEntry path then none else some (.missingInput path)).or
        (if files.hasFile path then none else some (.inputNoFile path)) := by
    rw [inputFault?]
    cases files.hasEntry path <;> cases files.hasFile path <;> rfl
  rw [hfault]
  exact (reports_check (x := .inputExists path) Iff.rfl).append
    (reports_check (x := .inputIsFile path) Iff.rfl)

theorem reports_contextFault? (context : Option String) :
    Reports files (context.toList.map .contextIsFile) (context.bind (contextFault? files)) := by
  cases context with
  | none => exact List.forall_mem_nil _
  | some path => exact reports_check (x := .contextIsFile path) Iff.rfl

theorem reports_tableFault? (bs : List Binding) :
    Reports files (bs.flatMap Condition.ofBinding) (tableFault? bs) := by
  induction bs with
  | nil => exact List.forall_mem_nil _
  | cons b rest ih =>
    have hfault : tableFault? (b :: rest) =
        (if decide (b.name ≠ "") then none else some (.emptyName b.iri)).or
          ((if decide (b.iri ≠ "") then none else some (.emptyIri b.name)).or
            (tableFault? rest)) := by
      rw [tableFault?]
      by_cases hname : b.name = "" <;> by_cases hiri : b.iri = "" <;> simp [hname, hiri]
    rw [hfault]
    have hname : (Condition.bindingNamed b).Holds files ↔ b.name ≠ "" := Iff.rfl
    have hiri : (Condition.bindingBound b).Holds files ↔ b.iri ≠ "" := Iff.rfl
    exact (reports_check (decide_eq_true_iff.trans hname.symm)).append
      ((reports_check (decide_eq_true_iff.trans hiri.symm)).append ih)

/-! ## Resolution -/

def namespaceOf (c : Choices) (f : FileSettings) : String :=
  (c.metadataNamespace.or f.metadataNamespace).getD Vocabulary.defaultMetadataNamespace

/-- What is asked of the values that were chosen, in the order in which they are looked at. -/
def conditions (c : Choices) (f : FileSettings) : List Condition :=
  .inputGiven (c.input.or f.input) ::
    ((c.input.or f.input).toList.flatMap Condition.ofInput ++
      (.namespaceClosed (namespaceOf c f) ::
        ((c.context.or f.context).toList.map .contextIsFile ++
          f.prefixes.flatMap Condition.ofBinding)))

def ofValues (input : String) (c : Choices) (f : FileSettings) : Settings :=
  ⟨input, c.output, (c.format.or f.format).getD .json, namespaceOf c f, c.context.or f.context,
    f.prefixes, f.vocabulary⟩

def fault? (input : String) (c : Choices) (f : FileSettings) : Option SettingsError :=
  (inputFault? files input).or
    ((if isClosed (namespaceOf c f) then none else some (.openNamespace (namespaceOf c f))).or
      (((c.context.or f.context).bind (contextFault? files)).or (tableFault? f.prefixes)))

variable {files} {c : Choices} {f f' : FileSettings} {s : Settings} {e : SettingsError}
  {input : String}

theorem resolve_of_input (hinput : c.input.or f.input = some input) :
    resolve files c f = match fault? files input c f with
      | some e => .error e
      | none => .ok (ofValues input c f) := by
  rw [resolve, hinput, fault?, namespaceOf]
  dsimp only
  cases inputFault? files input with
  | some e => rfl
  | none =>
    cases isClosed ((c.metadataNamespace.or f.metadataNamespace).getD
        Vocabulary.defaultMetadataNamespace) with
    | false => rfl
    | true =>
      cases (c.context.or f.context).bind (contextFault? files) with
      | some e => rfl
      | none => cases tableFault? f.prefixes <;> rfl

theorem reports_fault? (hinput : c.input.or f.input = some input) :
    Reports files (conditions c f) (fault? files input c f) := by
  have hgiven : Reports files [.inputGiven (some input)] none :=
    List.forall_mem_singleton.2 (Option.some_ne_none input)
  have hspace : Reports files [.namespaceClosed (namespaceOf c f)]
      (if isClosed (namespaceOf c f) then none else some (.openNamespace (namespaceOf c f))) :=
    reports_check (x := .namespaceClosed (namespaceOf c f)) isClosed_iff
  have hrest := (reports_contextFault? files (c.context.or f.context)).append
    (reports_tableFault? files f.prefixes)
  have hfound := (reports_inputFault? files input).append (hspace.append hrest)
  rw [conditions, hinput, Option.toList_some, List.flatMap_singleton]
  exact hgiven.append hfound

/-- Settings are made where every condition holds, and refused for the first that does not. -/
theorem resolve_cases (files : Files) (c : Choices) (f : FileSettings) :
    (∃ input, c.input.or f.input = some input ∧ resolve files c f = .ok (ofValues input c f) ∧
      ∀ x ∈ conditions c f, x.Holds files) ∨
    ∃ x, resolve files c f = .error x.fault ∧ FirstUnmet files (conditions c f) x := by
  cases hinput : c.input.or f.input with
  | none =>
    refine .inr ⟨.inputGiven none, by rw [resolve, hinput]; rfl, ?_⟩
    rw [conditions, hinput]
    exact .here (not_not_intro rfl)
  | some input =>
    have hreports : Reports files (conditions c f) (fault? files input c f) :=
      reports_fault? hinput
    rw [resolve_of_input hinput]
    cases hfault : fault? files input c f with
    | none =>
      rw [hfault] at hreports
      exact .inl ⟨input, rfl, rfl, hreports⟩
    | some e =>
      rw [hfault] at hreports
      obtain ⟨x, hx, rfl⟩ := hreports
      exact .inr ⟨x, rfl, hx⟩

theorem resolve_isOk_iff :
    (∃ s, resolve files c f = .ok s) ↔ ∀ x ∈ conditions c f, x.Holds files := by
  rcases resolve_cases files c f with ⟨input, -, hok, hall⟩ | ⟨x, herror, hx⟩
  · exact iff_of_true ⟨_, hok⟩ hall
  · rw [herror]
    refine iff_of_false (fun hex => ?_) fun hall => hx.mem.2 (hall x hx.mem.1)
    obtain ⟨s, hs⟩ := hex
    cases hs

theorem resolve_eq_error_iff :
    resolve files c f = .error e ↔ ∃ x, FirstUnmet files (conditions c f) x ∧ e = x.fault := by
  rcases resolve_cases files c f with ⟨input, -, hok, hall⟩ | ⟨x, herror, hx⟩
  · rw [hok]
    refine iff_of_false (fun h => ?_) fun hex => ?_
    · cases h
    · obtain ⟨x, hx, -⟩ := hex
      exact hx.mem.2 (hall x hx.mem.1)
  · rw [herror, Except.error.injEq]
    constructor
    · intro he
      exact ⟨x, hx, he.symm⟩
    · intro hex
      obtain ⟨y, hy, rfl⟩ := hex
      rw [hx.unique hy]

theorem forall_input_iff (given : Option String) :
    ((Condition.inputGiven given).Holds files ∧
      ∀ x ∈ given.toList.flatMap Condition.ofInput, x.Holds files) ↔
    ∃ input, given = some input ∧ files.hasEntry input = true ∧ files.hasFile input = true := by
  cases given <;> simp [Condition.Holds, Condition.ofInput]

theorem forall_context_iff (given : Option String) :
    (∀ x ∈ given.toList.map Condition.contextIsFile, x.Holds files) ↔
      ∀ path, given = some path → files.hasFile path = true := by
  cases given <;> simp [Condition.Holds]

theorem forall_table_iff (bs : List Binding) :
    (∀ x ∈ bs.flatMap Condition.ofBinding, x.Holds files) ↔
      ∀ b ∈ bs, b.name ≠ "" ∧ b.iri ≠ "" := by
  constructor
  · intro h b hb
    exact ⟨h _ (List.mem_flatMap_of_mem hb List.mem_cons_self),
      h _ (List.mem_flatMap_of_mem hb (List.mem_cons_of_mem _ List.mem_cons_self))⟩
  · intro h x hx
    obtain ⟨b, hb, hx⟩ := List.mem_flatMap.1 hx
    rcases List.mem_cons.1 hx with rfl | hx
    · exact (h b hb).1
    · rw [List.mem_singleton.1 hx]
      exact (h b hb).2

/-- The conditions in plain words. -/
theorem forall_conditions_iff : (∀ x ∈ conditions c f, x.Holds files) ↔
    (∃ input, c.input.or f.input = some input ∧ files.hasEntry input = true ∧
      files.hasFile input = true) ∧
    (∃ stem, namespaceOf c f = stem ++ "#" ∨ namespaceOf c f = stem ++ "/") ∧
    (∀ path, c.context.or f.context = some path → files.hasFile path = true) ∧
    ∀ b ∈ f.prefixes, b.name ≠ "" ∧ b.iri ≠ "" := by
  rw [conditions, List.forall_mem_cons, List.forall_mem_append, List.forall_mem_cons,
    List.forall_mem_append, ← and_assoc, forall_input_iff, forall_context_iff, forall_table_iff]
  rfl

/-! ## Shadowing -/

/-- What a run reads of its settings file, if it names one. -/
def Supplies (files : Files) (c : Choices) (f : FileSettings) : Prop :=
  match c.settingsFile with
  | none => f = .empty
  | some path => FileSettings.load files path = .ok f

theorem ofChoices_eq (hf : Supplies files c f) : ofChoices files c = resolve files c f := by
  rw [Supplies] at hf
  rw [ofChoices]
  cases hpath : c.settingsFile with
  | none =>
    rw [hpath] at hf
    rw [hf]
  | some path =>
    rw [hpath] at hf
    dsimp only at hf ⊢
    rw [hf]

/-- Two states of the files that differ in texts of files only. -/
structure SameButTexts (files files' : Files) : Prop where
  hasEntry (path : String) : files'.hasEntry path = files.hasEntry path
  hasFile (path : String) : files'.hasFile path = files.hasFile path

theorem sameButTexts_of_entry {files files' : Files}
    (h : ∀ path, files'.entry path = files.entry path ∨ ∃ text text',
      files.entry path = .ok (.file text) ∧ files'.entry path = .ok (.file text')) :
    SameButTexts files files' where
  hasEntry path := by
    rcases h path with hsame | ⟨text, text', htext, htext'⟩
    · rw [Files.hasEntry, Files.hasEntry, hsame]
    · rw [Files.hasEntry, Files.hasEntry, htext, htext']
      rfl
  hasFile path := by
    rcases h path with hsame | ⟨text, text', htext, htext'⟩
    · rw [Files.hasFile, Files.hasFile, hsame]
    · rw [Files.hasFile, Files.hasFile, htext, htext']

/-- Two settings files that differ only in values that the command line gives as well. -/
structure SameButShadowed (c : Choices) (f f' : FileSettings) : Prop where
  input (h : c.input = none) : f'.input = f.input
  context (h : c.context = none) : f'.context = f.context
  metadataNamespace (h : c.metadataNamespace = none) : f'.metadataNamespace = f.metadataNamespace
  format (h : c.format = none) : f'.format = f.format
  prefixes : f'.prefixes = f.prefixes
  vocabulary : f'.vocabulary = f.vocabulary

theorem or_eq_or_of_shadowed {α : Type} {given found found' : Option α}
    (h : given = none → found' = found) : given.or found' = given.or found := by
  cases given with
  | none => rw [h rfl]
  | some a => rfl

theorem resolve_eq_of_shadowed {files' : Files} (hfiles : SameButTexts files files')
    (h : SameButShadowed c f f') : resolve files' c f' = resolve files c f := by
  have hinput : inputFault? files' = inputFault? files := by
    funext path
    rw [inputFault?, inputFault?, hfiles.hasEntry, hfiles.hasFile]
  have hcontext : contextFault? files' = contextFault? files := by
    funext path
    rw [contextFault?, contextFault?, hfiles.hasFile]
  rw [resolve, resolve, or_eq_or_of_shadowed h.input, or_eq_or_of_shadowed h.context,
    or_eq_or_of_shadowed h.metadataNamespace, or_eq_or_of_shadowed h.format, h.prefixes,
    h.vocabulary, hinput, hcontext]

/-- The command line comes before the settings file and that before the default; the output is
chosen on the command line alone, prefixes and vocabulary in the file alone.  Settings are made
just if every condition on the chosen values holds, and refused for the first that does not.
What the command line shadows in the file changes neither the settings nor the refusal. -/
theorem ofChoices_by_precedence (files : Files) (c : Choices) (f : FileSettings)
    (hf : Supplies files c f) :
    (∀ s, ofChoices files c = .ok s → some s.input = c.input.or f.input ∧
      s.context = c.context.or f.context ∧
      s.metadataNamespace = (c.metadataNamespace.or f.metadataNamespace).getD
        Vocabulary.defaultMetadataNamespace ∧
      s.format = (c.format.or f.format).getD .json ∧
      s.output = c.output ∧ s.prefixes = f.prefixes ∧ s.vocabulary = f.vocabulary) ∧
    ((∃ s, ofChoices files c = .ok s) ↔
      (∃ input, c.input.or f.input = some input ∧ files.hasEntry input = true ∧
        files.hasFile input = true) ∧
      (∃ stem, namespaceOf c f = stem ++ "#" ∨ namespaceOf c f = stem ++ "/") ∧
      (∀ path, c.context.or f.context = some path → files.hasFile path = true) ∧
      ∀ b ∈ f.prefixes, b.name ≠ "" ∧ b.iri ≠ "") ∧
    (∀ e, ofChoices files c = .error e ↔
      ∃ x, FirstUnmet files (conditions c f) x ∧ e = x.fault) ∧
    ∀ files' f', SameButTexts files files' → SameButShadowed c f f' → Supplies files' c f' →
      ofChoices files' c = ofChoices files c := by
  refine ⟨fun s hs => ?_, ?_, fun e => ?_, fun files' f' hfiles hshadowed hf' => ?_⟩
  · rw [ofChoices_eq hf] at hs
    rcases resolve_cases files c f with ⟨input, hinput, hok, -⟩ | ⟨x, herror, -⟩
    · rw [hok] at hs
      cases hs
      exact ⟨hinput.symm, rfl, rfl, rfl, rfl, rfl, rfl⟩
    · rw [herror] at hs
      cases hs
  · rw [ofChoices_eq hf, resolve_isOk_iff, forall_conditions_iff]
  · rw [ofChoices_eq hf, resolve_eq_error_iff]
  · rw [ofChoices_eq hf, ofChoices_eq hf', resolve_eq_of_shadowed hfiles hshadowed]

/-- The text of a value is loaded as the settings that the value holds. -/
theorem load_pretty {path : String} {v : Json.Value}
    (hfile : files.entry path = .ok (.file (String.ofList (v.pretty 0 ++ ['\n']))))
    (hextension : Text.lower ((Path.extension? path).getD "") = "json")
    (hv : v.Plain Json.Value.maxDepth) (hsettings : v.settings? = some f) :
    FileSettings.load files path = .ok f := by
  have hentry : files.hasEntry path = true := by
    rw [Files.hasEntry, hfile]
    rfl
  have hread : files.read path = .ok (String.ofList (v.pretty 0 ++ ['\n'])) := by
    rw [Files.read, hfile]
  have hjson : FileSettings.ofJson? (String.ofList (v.pretty 0 ++ ['\n'])) = some f := by
    rw [FileSettings.ofJson?, Json.Value.parse?_pretty hv, Option.bind_some, hsettings]
  rw [FileSettings.load, if_pos hentry, hread]
  dsimp only
  rw [FileSettings.ofText, hextension, if_neg (by decide), if_pos rfl, hjson]

def garageValue (input space : String) : Json.Value :=
  .object [("input", .text input), ("metadata_namespace", .text space), ("format", .text "yaml"),
    ("prefixes", .object [("car", .text "urn:car#")])]

def garageFiles (input space : String) : Files :=
  let text := String.ofList ((garageValue input space).pretty 0 ++ ['\n'])
  .ofList [("garage.json", .ok (.file text)), ("car.ttl", .ok (.file ""))]

def garageSettings (input space : String) : FileSettings where
  input := some input
  prefixes := [⟨"car", "urn:car#"⟩]
  vocabulary := none
  metadataNamespace := some space
  context := none
  format := some .yaml

def garageChoices (space : Option String) : Choices where
  settingsFile := some "garage.json"
  input := some "car.ttl"
  context := none
  metadataNamespace := space
  format := some .json
  output := none

theorem load_garageFiles (input space : String) :
    FileSettings.load (garageFiles input space) "garage.json" =
      .ok (garageSettings input space) := by
  have hplain : (garageValue input space).Plain Json.Value.maxDepth := by
    have htext (s : String) (n : Nat) : (Json.Value.text s).Plain n := .text s
    refine .object fun m hm => ?_
    simp only [List.mem_cons, List.not_mem_nil, or_false] at hm
    obtain rfl | rfl | rfl | rfl := hm
    · exact htext _ _
    · exact htext _ _
    · exact htext _ _
    · exact .object fun m hm => (List.mem_singleton.1 hm) ▸ htext _ _
  exact load_pretty rfl (by decide) hplain rfl

theorem entry_ofList_of_ne {path other : String} (h : path ≠ other)
    (e : Except FileError Entry) (known : List (String × Except FileError Entry)) :
    (Files.ofList ((other, e) :: known)).entry path = (Files.ofList known).entry path := by
  have hother : (path == other) = false := beq_eq_false_iff_ne.2 h
  show (((other, e) :: known).lookup path).getD (.error .notFound) = _
  rw [List.lookup_cons, hother]
  rfl

theorem sameButTexts_garageFiles (input space input' space' : String) :
    SameButTexts (garageFiles input space) (garageFiles input' space') := by
  refine sameButTexts_of_entry fun path => ?_
  by_cases hpath : path = "garage.json"
  · subst hpath
    exact .inr ⟨_, _, rfl, rfl⟩
  · rw [garageFiles, garageFiles, entry_ofList_of_ne hpath, entry_ofList_of_ne hpath]
    exact .inl rfl

/-- A missing input and an open namespace of the file are shadowed, and what is not shadowed
any more is looked at. -/
theorem ofChoices_by_precedence_garage :
    ofChoices (garageFiles "missing.ttl" "urn:meta") (garageChoices (some "urn:own#")) =
        ofChoices (garageFiles "car.ttl" "urn:meta#") (garageChoices (some "urn:own#")) ∧
      (∃ s, ofChoices (garageFiles "missing.ttl" "urn:meta") (garageChoices (some "urn:own#")) =
        .ok s ∧ s.input = "car.ttl" ∧ s.metadataNamespace = "urn:own#" ∧ s.format = .json ∧
          s.prefixes = [⟨"car", "urn:car#"⟩]) ∧
      ofChoices (garageFiles "missing.ttl" "urn:meta") (garageChoices none) =
        .error (.openNamespace "urn:meta") := by
  obtain ⟨hparts, hok, -, hshadow⟩ := ofChoices_by_precedence
    (garageFiles "missing.ttl" "urn:meta") (garageChoices (some "urn:own#")) _
    (load_garageFiles "missing.ttl" "urn:meta")
  obtain ⟨-, -, herror, -⟩ := ofChoices_by_precedence
    (garageFiles "missing.ttl" "urn:meta") (garageChoices none) _
    (load_garageFiles "missing.ttl" "urn:meta")
  refine ⟨?_, ?_, ?_⟩
  · have hshadowed : SameButShadowed (garageChoices (some "urn:own#"))
        (garageSettings "missing.ttl" "urn:meta") (garageSettings "car.ttl" "urn:meta#") :=
      ⟨nofun, fun _ => rfl, nofun, nofun, rfl, rfl⟩
    exact (hshadow _ _ (sameButTexts_garageFiles ..) hshadowed
      (load_garageFiles "car.ttl" "urn:meta#")).symm
  · obtain ⟨s, hs⟩ := hok.2 ⟨⟨"car.ttl", rfl, rfl, rfl⟩, ⟨"urn:own", .inl rfl⟩, nofun, by decide⟩
    obtain ⟨hinput, -, hspace, hformat, -, hprefixes, -⟩ := hparts s hs
    exact ⟨s, hs, Option.some.inj hinput, hspace, hformat, hprefixes⟩
  · refine (herror _).2 ⟨.namespaceClosed "urn:meta", ?_, rfl⟩
    have hopen : ¬(Condition.namespaceClosed "urn:meta").Holds
        (garageFiles "missing.ttl" "urn:meta") := mt isClosed_iff.2 (by decide)
    exact .later (Option.some_ne_none _) (.later rfl (.later rfl (.here hopen)))

end Settings
end OntologyModel
