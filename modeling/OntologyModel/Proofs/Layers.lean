/-
The layers that the context of a run is made of.

The common prefixes come first, then the context of a document, then configured prefixes, and a
configured vocabulary last.  The layers are added by different routines.  Yet each of them
succeeds just where its declarations are taken in, and leaves what declaring them leaves, so that
the layers together are one list of declarations.  Whether a list is taken in does not depend on
its order, while the places of the prefixes and the vocabulary do.
-/
import OntologyModel.Proofs.Compaction
import OntologyModel.Proofs.Documents
import OntologyModel.Proofs.Json.Rereading
import OntologyModel.Settings.Resolution

namespace OntologyModel

theorem Outcomes.bind_eq_ok_iff {ε α β : Type} {x : Except ε α} {f : α → Except ε β} {b : β} :
    x >>= f = .ok b ↔ ∃ a, x = .ok a ∧ f a = .ok b := by
  cases x <;> simp [bind, Except.bind]

/-! ## Contexts as declarations -/

namespace Namespaces

variable {ns ns' other : Namespaces} {bs : List Binding} {space : String}

theorem registerAll_toExcept (ns : Namespaces) (bs : List Binding) :
    (ns.registerAll bs).toExcept = ns.declareAll (bs.map .binding) := by
  induction bs generalizing ns with
  | nil => rfl
  | cons b bs ih =>
    rw [registerAll, List.map_cons, declareAll, declare]
    cases ns.register b.name b.iri with
    | ok ns' => exact ih ns'
    | error e => rfl

/-- What a context would have to declare to be as it is. -/
def restated (ns : Namespaces) : List Declaration :=
  ns.bindings.map .binding ++ (ns.vocabulary.map .vocabulary).toList

theorem bindingsOf_toList_vocabulary (vocabulary : Option String) :
    bindingsOf (vocabulary.map Declaration.vocabulary).toList = [] := by
  cases vocabulary <;> rfl

theorem vocabularyOf_toList_vocabulary (vocabulary : Option String) :
    vocabularyOf (vocabulary.map Declaration.vocabulary).toList = vocabulary := by
  cases vocabulary <;> rfl

theorem bindingsOf_restated (ns : Namespaces) : bindingsOf ns.restated = ns.bindings := by
  rw [restated, bindingsOf_append, bindingsOf_map_binding, bindingsOf_toList_vocabulary,
    List.append_nil]

theorem vocabularyOf_restated (ns : Namespaces) : vocabularyOf ns.restated = ns.vocabulary := by
  rw [restated, vocabularyOf_append, vocabularyOf_map_binding, vocabularyOf_toList_vocabulary,
    Option.or_none]

theorem merge_toExcept (ns other : Namespaces) :
    (ns.merge other).toExcept = ns.declareAll other.restated := by
  rw [restated, declareAll_append, ← registerAll_toExcept, merge]
  cases ns.registerAll other.bindings with
  | mk ns' error =>
    cases error with
    | some e => rfl
    | none => cases other.vocabulary <;> rfl

theorem misplaced_not_mem_map_binding (found : String) :
    .misplaced found ∉ bs.map Declaration.binding := by
  simp

theorem misplaced_not_mem_restated (ns : Namespaces) (found : String) :
    .misplaced found ∉ ns.restated := by
  rw [restated]
  cases ns.vocabulary <;> simp

/-- Taking over a context that was declared is declaring the same again. -/
theorem declareAll_restated_iff {ds : List Declaration} (h : empty.declareAll ds = .ok other) :
    ns.declareAll other.restated = .ok ns' ↔ ns.declareAll ds = .ok ns' := by
  obtain ⟨hdeclared, hbindings, hvocabulary⟩ := declareAll_empty_eq_ok_iff.1 h
  have hadmissible : Admissible ns.bindings other.restated ↔ Admissible ns.bindings ds := by
    have hsame : Agree (ns.bindings ++ bindingsOf other.restated) ↔
        Agree (ns.bindings ++ bindingsOf ds) := by
      rw [bindingsOf_restated, hbindings, agree_append_firsts hdeclared.bindings_agree]
    exact ⟨fun h => ⟨hdeclared.placed, hsame.1 h.agree⟩,
      fun h => ⟨misplaced_not_mem_restated other, hsame.2 h.agree⟩⟩
  rw [declareAll_eq_ok_iff, declareAll_eq_ok_iff, hadmissible, bindingsOf_restated, hbindings,
    firsts_append_firsts, vocabularyOf_restated, hvocabulary]

theorem nameFor?_append (as bs : List Binding) (space : String) :
    nameFor? (as ++ bs) space = (nameFor? bs space).or (nameFor? as space) := by
  rw [nameFor?, List.filter_append, List.map_append, List.getLast?_append]
  rfl

/-- Bindings of prefixes that are not among those of others, each at its first place. -/
def additions (as bs : List Binding) : List Binding :=
  (firsts bs).filter fun b => b.name ∉ as.map Binding.name

end Namespaces

/-! ## Layers -/

namespace Settings

open Namespaces

variable {ns ns' : Namespaces} {files : Files} {s : Settings} {read : Option (String × Json.Value)}

inductive Layer where
  | prefixes (bs : List Binding)
  | document (path : String) (v : Json.Value)

namespace Layer

def apply (ns : Namespaces) : Layer → Except SettingsError Namespaces
  | .prefixes bs => withPrefixes ns bs
  | .document path v => withDocument ns path v

def applyAll (ns : Namespaces) : List Layer → Except SettingsError Namespaces
  | [] => .ok ns
  | l :: rest =>
    match l.apply ns with
    | .ok ns' => applyAll ns' rest
    | .error e => .error e

def declarations : Layer → List Declaration
  | .prefixes bs => bs.map .binding
  | .document _ v => Namespaces.declarations (contextRoot v)

theorem withPrefixes_eq_ok_iff (bs : List Binding) :
    withPrefixes ns bs = .ok ns' ↔ ns.declareAll (bs.map .binding) = .ok ns' := by
  induction bs generalizing ns with
  | nil => rw [withPrefixes, List.map_nil, declareAll, Except.ok.injEq, Except.ok.injEq]
  | cons b bs ih =>
    rw [withPrefixes, List.map_cons, declareAll, declare]
    cases ns.register b.name b.iri with
    | ok ns₁ => exact ih
    | error e => exact iff_of_false (by simp) (by simp)

theorem withDocument_eq_ok_iff (path : String) (v : Json.Value) :
    withDocument ns path v = .ok ns' ↔
      ns.declareAll (Namespaces.declarations (contextRoot v)) = .ok ns' := by
  rw [withDocument]
  cases hload : ofDocument v with
  | error cause =>
    -- What does not go together by itself does not do so behind anything else.
    refine iff_of_false (by simp) fun h => ?_
    have hadmissible : Admissible empty.bindings (Namespaces.declarations (contextRoot v)) :=
      (declareAll_eq_ok_iff.1 h).1.of_subset (List.nil_subset _)
    obtain ⟨loaded, hloaded⟩ := declareAll_isOk_iff.2 hadmissible
    rw [ofDocument_eq, hloaded] at hload
    cases hload
  | ok loaded =>
    rw [ofDocument_eq] at hload
    rw [← declareAll_restated_iff hload, ← merge_toExcept]
    dsimp only
    cases (ns.merge loaded).toExcept with
    | error cause => exact iff_of_false (by simp) (by simp)
    | ok ns₁ => rw [Except.ok.injEq, Except.ok.injEq]

theorem apply_eq_ok_iff (l : Layer) :
    l.apply ns = .ok ns' ↔ ns.declareAll l.declarations = .ok ns' := by
  cases l with
  | prefixes bs => exact withPrefixes_eq_ok_iff bs
  | document path v => exact withDocument_eq_ok_iff path v

theorem applyAll_cons (ns : Namespaces) (l : Layer) (rest : List Layer) :
    applyAll ns (l :: rest) = l.apply ns >>= fun ns' => applyAll ns' rest := by
  rw [applyAll]
  cases l.apply ns <;> rfl

/-- Adding layers is declaring what they declare. -/
theorem applyAll_eq_ok_iff (layers : List Layer) :
    applyAll ns layers = .ok ns' ↔ ns.declareAll (layers.flatMap declarations) = .ok ns' := by
  induction layers generalizing ns with
  | nil => rw [applyAll, List.flatMap_nil, declareAll, Except.ok.injEq, Except.ok.injEq]
  | cons l rest ih =>
    rw [applyAll_cons, List.flatMap_cons, declareAll_append, Outcomes.bind_eq_ok_iff,
      Outcomes.bind_eq_ok_iff]
    simp only [apply_eq_ok_iff, ih]

end Layer

/-! ## The context of settings -/

/-- The document that settings name, if they name one, is at its path and has this value. -/
def Reads (s : Settings) (files : Files) : Option (String × Json.Value) → Prop
  | none => s.context = none
  | some (path, v) => s.context = some path ∧ document files path = .ok v

def loaded? : Option (String × Json.Value) → Except ContextError Namespaces
  | none => .ok empty
  | some (_, v) => ofDocument v

def documentDeclarations : Option (String × Json.Value) → List Declaration
  | none => []
  | some (_, v) => Namespaces.declarations (contextRoot v)

def layers (read : Option (String × Json.Value)) (bs : List Binding) : List Layer :=
  .prefixes commonBindings :: ((read.map fun m => .document m.1 m.2).toList ++ [.prefixes bs])

theorem loaded?_eq (read : Option (String × Json.Value)) :
    loaded? read = empty.declareAll (documentDeclarations read) := by
  cases read with
  | none => rfl
  | some m => exact ofDocument_eq m.2

theorem flatMap_layers (read : Option (String × Json.Value)) (bs : List Binding) :
    (layers read bs).flatMap Layer.declarations =
      commonBindings.map .binding ++ (documentDeclarations read ++ bs.map .binding) := by
  cases read <;> simp [layers, documentDeclarations, Layer.declarations]

theorem apply_common : Layer.apply empty (.prefixes commonBindings) = .ok common := by
  have hbindings : bindingsOf (Layer.declarations (.prefixes commonBindings)) = commonBindings :=
    bindingsOf_map_binding commonBindings
  rw [Layer.apply_eq_ok_iff, declareAll_empty_eq_ok_iff, hbindings]
  refine ⟨⟨misplaced_not_mem_map_binding, ?_⟩, (firsts_of_nodup common.nodup).symm, rfl⟩
  rw [hbindings]
  exact common.agree_bindings

/-- The context of the layers, with a configured vocabulary in place of theirs. -/
theorem layered_eq (read : Option (String × Json.Value)) (bs : List Binding)
    (vocabulary : Option String) :
    layered read bs vocabulary = (Layer.applyAll empty (layers read bs)).map
      fun ns => (vocabulary.map ns.setVocabulary).getD ns := by
  have hlast (ns : Namespaces) :
      (withPrefixes ns bs >>= fun ns => .ok ((vocabulary.map ns.setVocabulary).getD ns)) =
        (Layer.applyAll ns [.prefixes bs]).map
          fun ns => (vocabulary.map ns.setVocabulary).getD ns := by
    rw [Layer.applyAll_cons, Layer.apply]
    cases withPrefixes ns bs <;> rfl
  rw [layers, Layer.applyAll_cons, apply_common]
  cases read with
  | none => cases vocabulary <;> exact hlast common
  | some m =>
    show (withDocument common m.1 m.2 >>= fun ns => _) =
      (Layer.applyAll common [.document m.1 m.2, .prefixes bs]).map _
    rw [Layer.applyAll_cons, Layer.apply]
    cases withDocument common m.1 m.2 with
    | error e => rfl
    | ok ns' => cases vocabulary <;> exact hlast ns'

theorem namespaces_eq (h : s.Reads files read) :
    s.namespaces files = layered read s.prefixes s.vocabulary := by
  cases read with
  | none =>
    have hnone : s.context = none := h
    rw [namespaces, hnone]
  | some m =>
    obtain ⟨hcontext, hdocument⟩ := h
    rw [namespaces, hcontext]
    dsimp only
    rw [hdocument]

variable {bs : List Binding} {vocabulary : Option String} {loaded : Namespaces}

theorem layered_eq_ok_iff :
    layered read bs vocabulary = .ok ns ↔ ∃ ns₀, Layer.applyAll empty (layers read bs) = .ok ns₀ ∧
      ns.bindings = ns₀.bindings ∧ ns.vocabulary = vocabulary.or ns₀.vocabulary := by
  have hlast (ns₀ : Namespaces) : (vocabulary.map ns₀.setVocabulary).getD ns₀ = ns ↔
      ns.bindings = ns₀.bindings ∧ ns.vocabulary = vocabulary.or ns₀.vocabulary := by
    constructor
    · rintro rfl
      cases vocabulary <;> exact ⟨rfl, rfl⟩
    · rintro ⟨hbindings, hvocabulary⟩
      cases vocabulary <;> exact ext_of_parts hbindings.symm hvocabulary.symm
  rw [layered_eq]
  cases Layer.applyAll empty (layers read bs) with
  | error e => exact iff_of_false (by simp [Except.map]) (by simp)
  | ok ns₀ => simp [Except.map, hlast]

theorem layered_isOk_iff : (∃ ns, layered read bs vocabulary = .ok ns) ↔
    ∃ ns, Layer.applyAll empty (layers read bs) = .ok ns := by
  rw [layered_eq]
  cases Layer.applyAll empty (layers read bs) with
  | error e => exact iff_of_false (by simp [Except.map]) (by simp)
  | ok ns => exact ⟨fun _ => ⟨ns, rfl⟩, fun _ => ⟨_, rfl⟩⟩

theorem loaded?_eq_ok_iff :
    loaded? read = .ok loaded ↔ Admissible [] (documentDeclarations read) ∧
      loaded.bindings = firsts (bindingsOf (documentDeclarations read)) ∧
      loaded.vocabulary = vocabularyOf (documentDeclarations read) := by
  rw [loaded?_eq]
  exact declareAll_empty_eq_ok_iff

theorem mem_bindings_loaded (h : loaded? read = .ok loaded) {b : Binding} :
    b ∈ bindingsOf (documentDeclarations read) ↔ b ∈ loaded.bindings := by
  obtain ⟨hadmissible, hbindings, -⟩ := loaded?_eq_ok_iff.1 h
  rw [hbindings, mem_firsts hadmissible.bindings_agree]

theorem bindingsOf_layers (read : Option (String × Json.Value)) (bs : List Binding) :
    bindingsOf ((layers read bs).flatMap Layer.declarations) =
      commonBindings ++ (bindingsOf (documentDeclarations read) ++ bs) := by
  rw [flatMap_layers, bindingsOf_append, bindingsOf_append, bindingsOf_map_binding,
    bindingsOf_map_binding]

theorem mem_bindingsOf_layers (h : loaded? read = .ok loaded) {b : Binding} :
    b ∈ bindingsOf ((layers read bs).flatMap Layer.declarations) ↔
      b ∈ commonBindings ∨ b ∈ loaded.bindings ∨ b ∈ bs := by
  rw [bindingsOf_layers, List.mem_append, List.mem_append, mem_bindings_loaded h]

theorem agree_layers_iff (h : loaded? read = .ok loaded) :
    Agree (bindingsOf ((layers read bs).flatMap Layer.declarations)) ↔
      Agree (commonBindings ++ loaded.bindings ++ bs) := by
  refine agree_congr fun b => ?_
  rw [mem_bindingsOf_layers h, List.mem_append, List.mem_append, or_assoc]

/-- The layers go together just if the document does by itself and no prefix gets two
namespaces. -/
theorem admissible_layers_iff :
    Admissible [] ((layers read bs).flatMap Layer.declarations) ↔
      ∃ loaded, loaded? read = .ok loaded ∧ Agree (commonBindings ++ loaded.bindings ++ bs) := by
  have hmisplaced (found : String) :
      .misplaced found ∈ (layers read bs).flatMap Layer.declarations ↔
        .misplaced found ∈ documentDeclarations read := by
    simp [flatMap_layers]
  constructor
  · rintro ⟨hplaced, hagree⟩
    have hdocument : Admissible [] (documentDeclarations read) := by
      refine ⟨fun found => mt (hmisplaced found).2 (hplaced found), hagree.of_subset ?_⟩
      rw [bindingsOf_layers, List.nil_append, List.nil_append]
      exact fun b hb => List.mem_append_right _ (List.mem_append_left _ hb)
    have hok : ∃ loaded, loaded? read = .ok loaded := by
      rw [loaded?_eq]
      exact declareAll_isOk_iff.2 hdocument
    obtain ⟨loaded, hloaded⟩ := hok
    exact ⟨loaded, hloaded, (agree_layers_iff hloaded).1 hagree⟩
  · rintro ⟨loaded, hloaded, hagree⟩
    obtain ⟨⟨hplaced, -⟩, -⟩ := loaded?_eq_ok_iff.1 hloaded
    refine ⟨fun found => ?_, (agree_layers_iff hloaded).2 hagree⟩
    exact mt (hmisplaced found).1 (hplaced found)

/-- Layers go together in every order or in none. -/
theorem applyAll_isOk_of_perm {ls ls' : List Layer} (hperm : ls.Perm ls')
    (h : ∃ ns, Layer.applyAll empty ls = .ok ns) : ∃ ns, Layer.applyAll empty ls' = .ok ns := by
  simp only [Layer.applyAll_eq_ok_iff, declareAll_isOk_iff] at h ⊢
  exact h.of_perm (hperm.flatMap_right _)

/-- What the layers of a context leave. -/
theorem parts_of_layered (hloaded : loaded? read = .ok loaded)
    (h : layered read bs vocabulary = .ok ns) :
    (∀ name iri, ns.get? name = some iri ↔
      ⟨name, iri⟩ ∈ commonBindings ∨ ⟨name, iri⟩ ∈ loaded.bindings ∨ ⟨name, iri⟩ ∈ bs) ∧
    ns.vocabulary = vocabulary.or loaded.vocabulary ∧
    ns.bindings = commonBindings ++ additions commonBindings loaded.bindings ++
      additions (commonBindings ++ loaded.bindings) bs := by
  obtain ⟨ns₀, hns₀, hsame, hlast⟩ := layered_eq_ok_iff.1 h
  rw [Layer.applyAll_eq_ok_iff, declareAll_empty_eq_ok_iff] at hns₀
  obtain ⟨hadmissible, hbindings, hvocabulary⟩ := hns₀
  obtain ⟨-, hloadedbindings, hloadedvocabulary⟩ := loaded?_eq_ok_iff.1 hloaded
  have hcommon : firsts commonBindings = commonBindings := firsts_of_nodup common.nodup
  refine ⟨fun name iri => ?_, ?_, ?_⟩
  · rw [get?_eq_some_iff, hsame, hbindings, mem_firsts hadmissible.bindings_agree,
      mem_bindingsOf_layers hloaded]
  · rw [hlast, hvocabulary, hloadedvocabulary, flatMap_layers, vocabularyOf_append,
      vocabularyOf_append, vocabularyOf_map_binding, vocabularyOf_map_binding, Option.or_none,
      Option.none_or]
  · have hread : firsts (commonBindings ++ (bindingsOf (documentDeclarations read) ++ bs)) =
        firsts (commonBindings ++ loaded.bindings ++ bs) := by
      rw [hloadedbindings, List.append_assoc, firsts_append_firsts_append]
    rw [hsame, hbindings, bindingsOf_layers, hread, firsts_append, firsts_append, hcommon]
    rfl

/-- A short form takes the prefix of the last layer that has one for the namespace. -/
theorem compact_of_layers {early middle late : List Binding} {iri space rest : String}
    (hbindings : ns.bindings = early ++ middle ++ late) (hlongest : LongestFit ns.spaces iri space)
    (hrest : space ++ rest = iri) :
    ∃ name, (nameFor? late space).or ((nameFor? middle space).or (nameFor? early space)) =
      some name ∧ ns.compact iri = name ++ ":" ++ rest := by
  obtain ⟨name, hname⟩ := exists_nameFor? hlongest.mem
  refine ⟨name, ?_, compact_of_longestFit hlongest hname hrest⟩
  rwa [hbindings, nameFor?_append, nameFor?_append] at hname

/-- Settings have a context just if their document is one by itself and no prefix gets two
namespaces by the common bindings, the document and the configured prefixes.  The context then
binds what any of them binds, each prefix in the place that its first layer gives it, and short
forms prefer later places; the vocabulary is the configured one, or else that of the document.
In another order the layers go together as well or as little. -/
theorem namespaces_by_layers (s : Settings) (files : Files) (read : Option (String × Json.Value))
    (hread : s.Reads files read) :
    ((∃ ns, s.namespaces files = .ok ns) ↔ ∃ loaded, loaded? read = .ok loaded ∧
      Agree (commonBindings ++ loaded.bindings ++ s.prefixes)) ∧
    (∀ ns loaded, s.namespaces files = .ok ns → loaded? read = .ok loaded →
      (∀ name iri, ns.get? name = some iri ↔ ⟨name, iri⟩ ∈ commonBindings ∨
        ⟨name, iri⟩ ∈ loaded.bindings ∨ ⟨name, iri⟩ ∈ s.prefixes) ∧
      ns.vocabulary = s.vocabulary.or loaded.vocabulary ∧
      ns.bindings = commonBindings ++ additions commonBindings loaded.bindings ++
        additions (commonBindings ++ loaded.bindings) s.prefixes ∧
      ∀ iri space rest, LongestFit ns.spaces iri space → space ++ rest = iri →
        ∃ name, (nameFor? (additions (commonBindings ++ loaded.bindings) s.prefixes) space).or
            ((nameFor? (additions commonBindings loaded.bindings) space).or
              (nameFor? commonBindings space)) = some name ∧
          ns.compact iri = name ++ ":" ++ rest) ∧
    ∀ ls : List Layer, ls.Perm (layers read s.prefixes) →
      ((∃ ns, Layer.applyAll empty ls = .ok ns) ↔ ∃ ns, s.namespaces files = .ok ns) := by
  have hok : (∃ ns, s.namespaces files = .ok ns) ↔
      ∃ ns, Layer.applyAll empty (layers read s.prefixes) = .ok ns := by
    rw [namespaces_eq hread]
    exact layered_isOk_iff
  refine ⟨?_, fun ns loaded hns hloaded => ?_, fun ls hperm => ?_⟩
  · simp only [hok, Layer.applyAll_eq_ok_iff, declareAll_isOk_iff]
    exact admissible_layers_iff
  · rw [namespaces_eq hread] at hns
    obtain ⟨hget, hvocabulary, hbindings⟩ := parts_of_layered hloaded hns
    exact ⟨hget, hvocabulary, hbindings, fun iri space rest => compact_of_layers hbindings⟩
  · rw [hok]
    exact ⟨applyAll_isOk_of_perm hperm, applyAll_isOk_of_perm hperm.symm⟩

/-- A document that repeats a common prefix and binds one of its own. -/
def carDocument : Json.Value :=
  .object [("@vocab", .text "urn:car#"), ("rdfs", .text Vocabulary.rdfsNamespace),
    ("car", .text "urn:car#")]

def carContext : Namespaces :=
  ⟨[⟨"car", "urn:car#"⟩, ⟨"rdfs", Vocabulary.rdfsNamespace⟩], some "urn:car#", by decide⟩

def carFiles : Files :=
  .ofList [("car.jsonld", .ok (.file (String.ofList (carDocument.pretty 0 ++ ['\n']))))]

/-- The prefix of the document is configured as well, behind another one for its namespace. -/
def carSettings : Settings where
  input := "car.ttl"
  output := none
  format := .json
  metadataNamespace := Vocabulary.defaultMetadataNamespace
  context := some "car.jsonld"
  prefixes := [⟨"vehicle", "urn:car#"⟩, ⟨"car", "urn:car#"⟩]
  vocabulary := some "urn:vehicle#"

/-- The prefix of the document is configured for another namespace. -/
def clashingSettings : Settings := { carSettings with prefixes := [⟨"car", "urn:vehicle#"⟩] }

theorem document_carFiles : document carFiles "car.jsonld" = .ok carDocument := by
  have hplain : carDocument.Plain Json.Value.maxDepth := by
    refine .object fun m hm => ?_
    simp only [List.mem_cons, List.not_mem_nil, or_false] at hm
    obtain rfl | rfl | rfl := hm <;> exact .text _
  have hfile : carFiles.read "car.jsonld" =
      .ok (String.ofList (carDocument.pretty 0 ++ ['\n'])) := by
    simp [Files.read, carFiles, Files.ofList]
  rw [document, hfile]
  dsimp only
  rw [Json.Value.parse?_pretty hplain]

theorem namespaces_by_layers_car :
    (∃ ns, carSettings.namespaces carFiles = .ok ns ∧ ns.vocabulary = some "urn:vehicle#" ∧
      ns.bindings = commonBindings ++ [⟨"car", "urn:car#"⟩, ⟨"vehicle", "urn:car#"⟩] ∧
      ns.compact "urn:car#door" = "vehicle:door") ∧
    ¬∃ ns, clashingSettings.namespaces carFiles = .ok ns := by
  have hread : carSettings.Reads carFiles (some ("car.jsonld", carDocument)) :=
    ⟨rfl, document_carFiles⟩
  have hclashing : clashingSettings.Reads carFiles (some ("car.jsonld", carDocument)) :=
    ⟨rfl, document_carFiles⟩
  obtain ⟨hok, hparts, -⟩ := namespaces_by_layers carSettings carFiles _ hread
  obtain ⟨hclash, -, -⟩ := namespaces_by_layers clashingSettings carFiles _ hclashing
  have hloaded : loaded? (some ("car.jsonld", carDocument)) = .ok carContext := rfl
  constructor
  · obtain ⟨ns, hns⟩ := hok.2 ⟨carContext, hloaded, by decide⟩
    obtain ⟨-, hvocabulary, hbindings, hshort⟩ := hparts ns carContext hns hloaded
    have hall : ns.bindings =
        commonBindings ++ [⟨"car", "urn:car#"⟩, ⟨"vehicle", "urn:car#"⟩] := hbindings
    have hlongest : LongestFit ns.spaces "urn:car#door" "urn:car#" := by
      rw [spaces, hall]
      exact ⟨by decide, by decide, by decide⟩
    obtain ⟨name, hname, hcompact⟩ := hshort _ _ "door" hlongest rfl
    have hvehicle : name = "vehicle" := (Option.some.inj hname).symm
    refine ⟨ns, hns, hvocabulary, hall, ?_⟩
    rw [hcompact, hvehicle]
    rfl
  · rw [hclash]
    rintro ⟨loaded, h, hagree⟩
    rw [hloaded, Except.ok.injEq] at h
    subst h
    exact absurd hagree (by decide)

end Settings
end OntologyModel
