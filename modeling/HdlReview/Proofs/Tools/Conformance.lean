import HdlReview.Proofs.Decimal.Range
import HdlReview.Proofs.Tools.Outcomes

/-!
# Arguments that follow the advertised schema

The schema of a tool's arguments is advertised as a data value, and the arguments themselves are
checked by the readers of requests. Here the advertised value is given a meaning of its own, keyword
by keyword, without a look at the readers. Objects that follow the schema are always read as a
request. Fields that the schema does not name make no difference, and a field that is left out
counts as the default that the schema states for it.

## Main definitions

* `Conforms schema v`: a value follows a schema that is given as a data value
* `Schema.Allows`: the values of an argument's schema
* `Completes parameters fields fields'`: an object with only the fields that the schema names and
  with defaults in place of absent ones
* `Takes read s`: a reader takes all values of a schema

## Main results

* `conforms_toFields_iff`, `conforms_record_iff`: what the advertised schemas mean
* `Tool.exists_readCall`: conforming objects, also completed ones, are read as the same request
* `execute_of_conforms`: a call with a conforming object has a result, and completing the object
  does not change it
-/

namespace HdlReview.Json

/-- The member of an object under a name. Other values have no members. -/
def Value.member? (name : String) : Value → Option Value
  | .obj fields => Keyed.get? name fields
  | _ => none

end HdlReview.Json

namespace HdlReview.Tools

open HdlReview.Json HdlReview.Validation HdlReview.Lint HdlReview.Advice HdlReview.Decimal

/-! ## The meaning of an advertised schema -/

/-- Whether a value has a type of schemas. A number is a double, or an integer in the range of
doubles. -/
def HasType (type : String) : Value → Prop
  | .null => type = "null"
  | .bool _ => type = "boolean"
  | .int n => type = "number" ∧ n.natAbs < overflowBound
  | .float _ => type = "number"
  | .str _ => type = "string"
  | .list _ => type = "array"
  | .obj _ => type = "object"

mutual

/-- **A value follows a schema**: it follows all keywords of it. -/
def Conforms : Value → Value → Prop
  | .obj keywords, v => FollowsAll keywords v
  | _, _ => False

/-- The value follows each of some keywords. -/
def FollowsAll : Fields → Value → Prop
  | [], _ => True
  | (keyword, argument) :: keywords, v => FollowsKeyword keyword argument v ∧ FollowsAll keywords v

/-- The value follows one keyword. Those that describe the schema ask nothing of it. -/
def FollowsKeyword (keyword : String) : Value → Value → Prop
  | .str type, v => keyword = "type" → HasType type v
  | .list items, v =>
    (keyword = "enum" → v ∈ items) ∧
      (keyword = "anyOf" → ConformsToSome items v) ∧
      (keyword = "required" → ∀ name, .str name ∈ items → (v.member? name).isSome)
  | .obj schemas, v => keyword = "properties" → MembersConform schemas v
  | _, _ => True

/-- The value follows one of some schemas. -/
def ConformsToSome : List Value → Value → Prop
  | [], _ => False
  | schema :: schemas, v => Conforms schema v ∨ ConformsToSome schemas v

/-- Each member that the value has under the name of a schema follows that schema. -/
def MembersConform : Fields → Value → Prop
  | [], _ => True
  | (name, schema) :: schemas, v =>
    (∀ w, v.member? name = some w → Conforms schema w) ∧ MembersConform schemas v

end

theorem followsAll_iff {keywords : Fields} {v : Value} :
    FollowsAll keywords v ↔ ∀ k ∈ keywords, FollowsKeyword k.1 k.2 v := by
  induction keywords with
  | nil => simp [FollowsAll]
  | cons k keywords ih =>
    obtain ⟨keyword, argument⟩ := k
    simp [FollowsAll, ih]

theorem membersConform_iff {schemas : Fields} {v : Value} :
    MembersConform schemas v ↔
      ∀ s ∈ schemas, ∀ w, v.member? s.1 = some w → Conforms s.2 w := by
  induction schemas with
  | nil => simp [MembersConform]
  | cons s schemas ih =>
    obtain ⟨name, schema⟩ := s
    simp [MembersConform, ih]

/-- Keywords that describe a schema are always followed. -/
theorem followsKeyword_of_description {keyword : String} (argument v : Value)
    (h : keyword ∈ ["default", "description", "title"]) : FollowsKeyword keyword argument v := by
  have hne : keyword ≠ "type" ∧ keyword ≠ "enum" ∧ keyword ≠ "anyOf" ∧ keyword ≠ "required" ∧
      keyword ≠ "properties" := by
    simp only [List.mem_cons, List.not_mem_nil, or_false] at h
    rcases h with rfl | rfl | rfl
    · decide
    · decide
    · decide
  cases argument <;> simp [FollowsKeyword, hne]

/-! ## Schemas of arguments -/

/-- **The values of an argument's schema**. -/
def Schema.Allows : Schema → Value → Prop
  | text, v => ∃ s, v = .str s
  | number, v => (∃ x, v = .float x) ∨ ∃ n, v = .int n ∧ n.natAbs < overflowBound
  | choice names, v => ∃ name ∈ names, v = .str name
  | nullable inner, v => v = .null ∨ inner.Allows v

theorem hasType_string_iff {v : Value} : HasType "string" v ↔ ∃ s, v = .str s := by
  cases v <;> simp [HasType]

theorem hasType_number_iff {v : Value} :
    HasType "number" v ↔ (∃ x, v = .float x) ∨ ∃ n, v = .int n ∧ n.natAbs < overflowBound := by
  cases v <;> simp [HasType]

theorem hasType_null_iff {v : Value} : HasType "null" v ↔ v = .null := by
  cases v <;> simp [HasType]

/-- **What a schema means** is what its advertised form means. -/
theorem conforms_toFields_iff {s : Schema} {v : Value} :
    FollowsAll s.toFields v ↔ s.Allows v := by
  induction s with
  | text =>
    simp only [Schema.toFields, FollowsAll, FollowsKeyword, Schema.Allows, and_true, true_imp_iff]
    exact hasType_string_iff
  | number =>
    simp only [Schema.toFields, FollowsAll, FollowsKeyword, Schema.Allows, and_true, true_imp_iff]
    exact hasType_number_iff
  | choice names =>
    simp only [Schema.toFields, Value.texts, FollowsAll, FollowsKeyword, Schema.Allows, and_true,
      true_imp_iff, hasType_string_iff]
    constructor
    · rintro ⟨⟨hv, -⟩, -⟩
      obtain ⟨name, hname, rfl⟩ := List.mem_map.1 hv
      exact ⟨name, hname, rfl⟩
    · -- the listed values are texts, so the type says no more than the list
      rintro ⟨name, hname, rfl⟩
      refine ⟨⟨List.mem_map_of_mem hname, ?_, ?_⟩, name, rfl⟩
      · intro h
        exact absurd h (by decide)
      · intro h
        exact absurd h (by decide)
  | nullable inner ih =>
    simp only [Schema.toFields, FollowsAll, FollowsKeyword, ConformsToSome, Conforms, Schema.Allows,
      and_true, or_false, true_imp_iff, hasType_null_iff, ih]
    constructor
    · rintro ⟨-, h, -⟩
      exact h.symm
    · intro h
      refine ⟨?_, h.symm, ?_⟩
      · intro h
        exact absurd h (by decide)
      · intro h
        exact absurd h (by decide)

theorem conforms_property_iff {p : Property} {v : Value} :
    Conforms p.toValue v ↔ p.schema.Allows v := by
  have hdescription : ∀ k ∈ (p.default.map fun v => ("default", v)).toList ++
      ((p.description.map fun d => ("description", .str d)).toList ++
        [("title", .str (titleCase p.name))]), FollowsKeyword k.1 k.2 v := by
    intro k hk
    apply followsKeyword_of_description
    -- the fields beside those of the schema are a default, a description and a title
    simp only [List.mem_append, Option.mem_toList, Option.map_eq_some_iff,
      List.mem_singleton] at hk
    rcases hk with ⟨d, -, rfl⟩ | ⟨d, -, rfl⟩ | rfl
    · simp
    · simp
    · simp
  rw [Property.toValue, Conforms, followsAll_iff, List.append_assoc, List.append_assoc,
    List.forall_mem_append, ← followsAll_iff, conforms_toFields_iff]
  exact ⟨fun h => h.1, fun h => ⟨h, hdescription⟩⟩

/-- **What the advertised schema of a record means**: each argument that is present has a value of
its schema, and those without a default are present. -/
theorem conforms_record_iff {s : RecordSchema} {fields : Fields} :
    Conforms (.obj s.toFields) (.obj fields) ↔
      (∀ p ∈ s.properties, ∀ w, Keyed.get? p.name fields = some w → p.schema.Allows w) ∧
        ∀ p ∈ s.properties, p.default = none → (Keyed.get? p.name fields).isSome := by
  have hproperties : MembersConform (s.properties.map fun p => (p.name, p.toValue)) (.obj fields) ↔
      ∀ p ∈ s.properties, ∀ w, Keyed.get? p.name fields = some w → p.schema.Allows w := by
    rw [membersConform_iff]
    simp only [List.forall_mem_map, conforms_property_iff]
    rfl
  have hrequired : (∀ name, Value.str name ∈ s.requiredNames.map Value.str →
      ((Value.obj fields).member? name).isSome) ↔
      ∀ p ∈ s.properties, p.default = none → (Keyed.get? p.name fields).isSome := by
    simp only [RecordSchema.requiredNames, List.mem_map, List.mem_filter, Option.isNone_iff_eq_none,
      Value.member?]
    constructor
    · intro h p hp hd
      exact h p.name ⟨p.name, ⟨p, ⟨hp, hd⟩, rfl⟩, rfl⟩
    · rintro h name ⟨_, ⟨p, ⟨hp, hd⟩, rfl⟩, hname⟩
      obtain rfl := Value.str.inj hname
      exact h p hp hd
  simp only [RecordSchema.toFields, Value.texts, Conforms, FollowsAll, FollowsKeyword, HasType,
    true_imp_iff, and_true, hproperties, hrequired]
  constructor
  · rintro ⟨-, hp, ⟨-, -, hr⟩, -⟩
    exact ⟨hp, hr⟩
  · rintro ⟨hp, hr⟩
    refine ⟨?_, hp, ⟨?_, ?_, hr⟩, ?_⟩
    all_goals
      intro h
      exact absurd h (by decide)

/-! ## Completed objects -/

/-- The schemas of single arguments in an advertised schema. -/
def advertised (parameters : Fields) : Fields :=
  match Keyed.get? "properties" parameters with
  | some (.obj schemas) => schemas
  | _ => []

/-- What an object, completed by an advertised schema, has under a name: nothing if the schema does
not name it, and else the value of the object or the default that the schema states. -/
def completion? (parameters fields : Fields) (name : String) : Option Value :=
  (Keyed.get? name (advertised parameters)).bind fun schema =>
    (Keyed.get? name fields).or (schema.member? "default")

/-- **An object completes another** by an advertised schema. -/
def Completes (parameters fields fields' : Fields) : Prop :=
  ∀ name, Keyed.get? name fields' = completion? parameters fields name

/-- The object that completes another, with its fields in the order of the schema. -/
def completed (parameters fields : Fields) : Fields :=
  (advertised parameters).filterMap fun s =>
    (completion? parameters fields s.1).map fun v => (s.1, v)

section Keys

variable {α β : Type}

theorem get?_append (name : String) (as bs : List (String × α)) :
    Keyed.get? name (as ++ bs) = (Keyed.get? name as).or (Keyed.get? name bs) := by
  induction as with
  | nil => rfl
  | cons a as ih => by_cases h : a.1 = name <;> simp [Keyed.get?, h, ih]

theorem get?_eq_none_of_not_mem {name : String} {entries : List (String × α)}
    (h : name ∉ entries.map (·.1)) : Keyed.get? name entries = none := by
  cases hg : Keyed.get? name entries with
  | none => rfl
  | some v => exact absurd (List.mem_map_of_mem (Keyed.get?_eq_some_mem hg)) h

/-- Entries with other values under the same names, some left out. -/
theorem get?_filterMap {entries : List (String × α)} (hd : (entries.map (·.1)).Nodup)
    (f : String → Option β) (name : String) :
    Keyed.get? name (entries.filterMap fun e => (f e.1).map fun b => (e.1, b)) =
      (Keyed.get? name entries).bind fun _ => f name := by
  induction entries with
  | nil => rfl
  | cons e entries ih =>
    obtain ⟨hnot, hrest⟩ := List.nodup_cons.1 hd
    by_cases he : e.1 = name
    · subst he
      cases hf : f e.1 with
      | some b => simp [hf, Keyed.get?]
      | none =>
        -- the name is left out here, and there is no other entry of that name
        have habsent : Keyed.get? e.1 entries = none := get?_eq_none_of_not_mem hnot
        simp [hf, Keyed.get?, ih hrest, habsent]
    · cases hf : f e.1 with
      | some b => simp [hf, Keyed.get?, he, ih hrest]
      | none => simp [hf, Keyed.get?, he, ih hrest]

end Keys

theorem completes_completed {parameters : Fields} (hd : ((advertised parameters).map (·.1)).Nodup)
    (fields : Fields) : Completes parameters fields (completed parameters fields) := by
  intro name
  rw [completed, get?_filterMap hd]
  cases hg : Keyed.get? name (advertised parameters) with
  | none => simp [completion?, hg]
  | some schema => rfl

theorem member?_default (p : Property) : p.toValue.member? "default" = p.default := by
  have hschema : Keyed.get? "default" p.schema.toFields = none := by
    cases p.schema <;> rfl
  have hdescription : Keyed.get? "default"
      (p.description.map fun d => ("description", Value.str d)).toList = none := by
    cases p.description <;> rfl
  rw [Property.toValue, Value.member?, get?_append, get?_append, get?_append, hschema,
    hdescription]
  cases p.default <;> rfl

/-- What a completed object has under the name of an argument. -/
theorem get?_of_completes {s : RecordSchema} (hd : (s.properties.map Property.name).Nodup)
    {fields fields' : Fields} (h : Completes s.toFields fields fields') {p : Property}
    (hp : p ∈ s.properties) :
    Keyed.get? p.name fields' = (Keyed.get? p.name fields).or p.default := by
  have hnames : ((advertised s.toFields).map (·.1)).Nodup := by
    have hmap : (advertised s.toFields).map (·.1) = s.properties.map Property.name := by
      change (s.properties.map fun p => (p.name, p.toValue)).map (·.1) = _
      rw [List.map_map]
      rfl
    rwa [hmap]
  have hmem : (p.name, p.toValue) ∈ advertised s.toFields :=
    List.mem_map_of_mem (f := fun p : Property => (p.name, p.toValue)) hp
  rw [h p.name, completion?, Keyed.get?_of_mem hnames hmem, Option.bind_some, member?_default]

/-! ## Readers -/

section Readers

variable {α : Type} {read : Reader α}

/-- **A reader takes all values of a schema**. -/
def Takes (read : Reader α) (s : Schema) : Prop :=
  ∀ v, s.Allows v → ∃ a, read v = .ok a

theorem takes_text : Takes text .text := by
  rintro v ⟨s, rfl⟩
  exact ⟨s, rfl⟩

theorem takes_number : Takes number .number := by
  rintro v (⟨x, rfl⟩ | ⟨n, rfl, hn⟩)
  · exact ⟨x, rfl⟩
  · exact ⟨.ofInt n, by simp [number, Double.isFinite_ofInt_iff.2 hn]⟩

theorem takes_listed (members : List (String × α)) :
    Takes (listed members) (.choice (members.map (·.1))) := by
  rintro v ⟨name, hname, rfl⟩
  obtain ⟨-, a, -, -, hget, -⟩ := Keyed.exists_insert_eq_append hname
  exact ⟨a, listed_of_get? hget⟩

theorem Takes.nullable {s : Schema} (h : Takes read s) :
    Takes (Validation.nullable read) (.nullable s) := by
  rintro v (rfl | hv)
  · exact ⟨none, rfl⟩
  · obtain ⟨a, ha⟩ := h v hv
    cases v with
    | null => exact ⟨none, rfl⟩
    | _ => exact ⟨some a, by simp [Validation.nullable, ha]⟩

/-- An argument in an object that follows the schema, and in one that completes it. -/
structure Suits (fields fields' : Fields) (p : Property) : Prop where
  allowed : ∀ w, Keyed.get? p.name fields = some w → p.schema.Allows w
  present : p.default = none → (Keyed.get? p.name fields).isSome
  completed : Keyed.get? p.name fields' = (Keyed.get? p.name fields).or p.default

variable {fields fields' : Fields} {name : String} {description : Option String} {s : Schema}

theorem Suits.required (h : Suits fields fields' ⟨name, description, s, none⟩)
    (ht : Takes read s) :
    ∃ a, Validation.required name read fields = .ok a ∧
      Validation.required name read fields' = .ok a := by
  obtain ⟨w, hw⟩ := Option.isSome_iff_exists.1 (h.present rfl)
  obtain ⟨a, ha⟩ := ht w (h.allowed w hw)
  have hw' : Keyed.get? name fields' = some w := by
    rw [h.completed, hw, Option.some_or]
  exact ⟨a, required_of_get? hw ha, required_of_get? hw' ha⟩

/-- A field with a default is read the same whether it is left out or set to the default. -/
theorem Suits.optional {d : Value} (default : α)
    (h : Suits fields fields' ⟨name, description, s, some d⟩) (ht : Takes read s)
    (hd : read d = .ok default) :
    ∃ a, Validation.optional name read default fields = .ok a ∧
      Validation.optional name read default fields' = .ok a := by
  cases hw : Keyed.get? name fields with
  | some w =>
    obtain ⟨a, ha⟩ := ht w (h.allowed w hw)
    have hw' : Keyed.get? name fields' = some w := by
      rw [h.completed, hw, Option.some_or]
    exact ⟨a, optional_of_get? hw ha, optional_of_get? hw' ha⟩
  | none =>
    have hw' : Keyed.get? name fields' = some d := by
      rw [h.completed, hw, Option.none_or]
    refine ⟨default, ?_, optional_of_get? hw' hd⟩
    rw [Validation.optional, hw]

end Readers

/-! ## Calls -/

variable {fields fields' : Fields}

theorem Tool.nodup_parameters (t : Tool) : (t.parameters.properties.map Property.name).Nodup := by
  cases t <;> decide

/-- **Conforming objects are read as a request**, and completing them does not change it. -/
theorem Tool.exists_readCall (t : Tool)
    (h : ∀ p ∈ t.parameters.properties, Suits fields fields' p) :
    ∃ call, t.readCall (.obj fields) = .ok call ∧ t.readCall (.obj fields') = .ok call := by
  cases t with
  | review =>
    simp only [Tool.parameters, List.forall_mem_cons] at h
    obtain ⟨hcode, hlanguage, -⟩ := h
    obtain ⟨code, hc, hc'⟩ := hcode.required takes_text
    obtain ⟨language, hl, hl'⟩ := hlanguage.required (takes_listed Language.members)
    refine ⟨.review ⟨code, language⟩, ?_, ?_⟩
    · simp only [Tool.readCall, ReviewRequest.read, record, ReviewRequest.readFields, hc, hl]
      rfl
    · simp only [Tool.readCall, ReviewRequest.read, record, ReviewRequest.readFields, hc', hl']
      rfl
  | timing =>
    simp only [Tool.parameters, List.forall_mem_cons] at h
    obtain ⟨hissue, hclock, hviolation, -⟩ := h
    obtain ⟨issue, hi, hi'⟩ := hissue.required takes_text
    obtain ⟨clock, hc, hc'⟩ := hclock.optional none takes_number.nullable rfl
    obtain ⟨violation, hv, hv'⟩ :=
      hviolation.optional .unknown (takes_listed Violation.members) rfl
    refine ⟨.timing ⟨issue, clock, violation⟩, ?_, ?_⟩
    · simp only [Tool.readCall, TimingRequest.read, record, TimingRequest.readFields, hi, hc, hv]
      rfl
    · simp only [Tool.readCall, TimingRequest.read, record, TimingRequest.readFields, hi', hc',
        hv']
      rfl
  | crossing =>
    simp only [Tool.parameters, List.forall_mem_cons] at h
    obtain ⟨hdescription, hsignal, -⟩ := h
    obtain ⟨description, hd, hd'⟩ := hdescription.required takes_text
    obtain ⟨signal, hs, hs'⟩ :=
      hsignal.optional none (takes_listed SignalType.members).nullable rfl
    refine ⟨.crossing ⟨description, signal⟩, ?_, ?_⟩
    · simp only [Tool.readCall, CrossingRequest.read, record, CrossingRequest.readFields, hd, hs]
      rfl
    · simp only [Tool.readCall, CrossingRequest.read, record, CrossingRequest.readFields, hd', hs']
      rfl

/-- **The advertised schemas are sound for the tools.** A call with an object that follows the
schema of the tool's description has a result. Every object that completes it by the schema, and
there is one, has the same result. -/
theorem execute_of_conforms {d : Descriptor} (hd : d ∈ descriptors) {fields : Fields}
    (h : Conforms (.obj d.parameters) (.obj fields)) :
    ∃ result records, execute d.name (.obj fields) = .ok (result, records) ∧
      Completes d.parameters fields (completed d.parameters fields) ∧
      ∀ fields', Completes d.parameters fields fields' →
        execute d.name (.obj fields') = .ok (result, records) := by
  obtain ⟨t, -, rfl⟩ := List.mem_map.1 hd
  obtain ⟨hallowed, hpresent⟩ := conforms_record_iff.1 h
  have hread : ∀ fields', Completes t.descriptor.parameters fields fields' → ∃ call,
      t.readCall (.obj fields) = .ok call ∧ t.readCall (.obj fields') = .ok call := by
    intro fields' hcompletes
    apply t.exists_readCall
    intro p hp
    exact ⟨hallowed p hp, hpresent p hp, get?_of_completes t.nodup_parameters hcompletes hp⟩
  have hcompleted : Completes t.descriptor.parameters fields
      (completed t.descriptor.parameters fields) := by
    apply completes_completed
    change ((t.parameters.properties.map fun p => (p.name, p.toValue)).map (·.1)).Nodup
    rw [List.map_map]
    exact t.nodup_parameters
  obtain ⟨call, hcall, -⟩ := hread _ hcompleted
  refine ⟨_, _, execute_of_read rfl hcall, hcompleted, ?_⟩
  intro fields' hcompletes
  obtain ⟨call', hcall', hcall''⟩ := hread fields' hcompletes
  -- both readings start from the same object, so they are of the same request
  rw [hcall] at hcall'
  obtain rfl := Except.ok.inj hcall'
  exact execute_of_read rfl hcall''

/-- Arguments on timing with an integer for the frequency, a field that the schema does not name,
and none for the violation. -/
def looseArguments : Fields :=
  [("note", .null), ("clockFrequency", .int 100), ("issue", .str "slow")]

/-- The same arguments completed, in another order. -/
def strictArguments : Fields :=
  [("violationType", .str "unknown"), ("issue", .str "slow"), ("clockFrequency", .int 100)]

theorem conforms_looseArguments :
    Conforms (.obj Tool.timing.descriptor.parameters) (.obj looseArguments) := by
  have hrange : 100 < overflowBound := by decide +kernel
  have hissue : Keyed.get? "issue" looseArguments = some (.str "slow") := rfl
  have hclock : Keyed.get? "clockFrequency" looseArguments = some (.int 100) := rfl
  have hviolation : Keyed.get? "violationType" looseArguments = none := rfl
  refine conforms_record_iff.2 ⟨?_, ?_⟩
  · simp only [Tool.parameters, List.forall_mem_cons, hissue, hclock, hviolation]
    refine ⟨?_, ?_, ?_, List.forall_mem_nil _⟩
    · rintro w ⟨⟩
      exact ⟨"slow", rfl⟩
    · rintro w ⟨⟩
      exact .inr (.inr ⟨100, rfl, hrange⟩)
    · rintro w ⟨⟩
  · simp only [Tool.parameters, List.forall_mem_cons, hissue]
    refine ⟨fun _ => rfl, ?_, ?_, List.forall_mem_nil _⟩
    · rintro ⟨⟩
    · rintro ⟨⟩

theorem completes_strictArguments :
    Completes Tool.timing.descriptor.parameters looseArguments strictArguments := by
  intro name
  by_cases hi : "issue" = name
  · subst hi
    rfl
  · by_cases hc : "clockFrequency" = name
    · subst hc
      rfl
    · by_cases hv : "violationType" = name
      · subst hv
        rfl
      · -- any other name is neither in the schema nor in the object
        have hother : Keyed.get? name (advertised Tool.timing.descriptor.parameters) = none := by
          change Keyed.get? name (Tool.timing.parameters.properties.map fun p =>
            (p.name, p.toValue)) = none
          simp [Tool.parameters, Keyed.get?, hi, hc, hv]
        simp [completion?, hother, strictArguments, Keyed.get?, hi, hc, hv]

theorem execute_of_conforms_looseArguments :
    Tool.timing.descriptor ∈ descriptors ∧
      Conforms (.obj Tool.timing.descriptor.parameters) (.obj looseArguments) ∧
      Completes Tool.timing.descriptor.parameters looseArguments strictArguments ∧
      ∃ result records,
        execute "timingAnalysis" (.obj looseArguments) = .ok (result, records) ∧
        execute "timingAnalysis" (.obj strictArguments) = .ok (result, records) := by
  have hd : Tool.timing.descriptor ∈ descriptors := List.mem_map_of_mem (by decide)
  obtain ⟨result, records, hexecute, -, hsame⟩ := execute_of_conforms hd conforms_looseArguments
  exact ⟨hd, conforms_looseArguments, completes_strictArguments, result, records, hexecute,
    hsame _ completes_strictArguments⟩

end HdlReview.Tools
