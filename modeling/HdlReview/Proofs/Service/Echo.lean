import HdlReview.Proofs.Json.Sendable
import HdlReview.Service.Body
import HdlReview.Tools.Registry

/-!
# What faults show

Each fault of a body shows the part of the body at its place: the whole object where a field is
missing, the value of a field where that is of the wrong form. The readers of parts turn down the
very value they are handed, and the readers of fields pass this on with one step more. So what a
fault shows is the plain value of a part of the body, and the place of the fault leads to that part.

## Main definitions

* `Checked.EachFault P c`: all faults of a checked value satisfy a condition
* `ShowsPart body f`: the fault shows the part of the body at its place
* `ShowsParts read`, `ShowsFields read`: the faults show parts of what was read

## Main results

* `Tool.eachFault_readCall`: the faults of the arguments of a tool
-/

namespace HdlReview.Validation

variable {α β : Type}

/-! ## Conditions on all faults -/

/-- All faults satisfy a condition. -/
def Checked.EachFault (P : Fault → Prop) (c : Checked α) : Prop :=
  ∀ fs, c = .error fs → ∀ f ∈ fs, P f

namespace Checked

variable {P Q : Fault → Prop}

theorem eachFault_ok (a : α) : EachFault P (.ok a) := by
  intro fs h
  exact absurd h nofun

theorem eachFault_error {e : List Fault} : EachFault P (.error e : Checked α) ↔ ∀ f ∈ e, P f := by
  constructor
  · intro h
    exact h e rfl
  · rintro h fs ⟨⟩
    exact h

theorem eachFault_reject {defect : Defect} {v : Json.Value} (h : P ⟨defect, [], v⟩) :
    EachFault P (reject defect v : Checked α) := by
  rw [reject, eachFault_error]
  simpa using h

theorem EachFault.ap {f : Checked (α → β)} {a : Checked α} (hf : EachFault P f)
    (ha : EachFault P a) : EachFault P (f.ap a) := by
  cases f with
  | ok g =>
    cases a with
    | ok x => exact eachFault_ok _
    | error e => exact eachFault_error.2 (eachFault_error.1 ha)
  | error e =>
    cases a with
    | ok x => exact eachFault_error.2 (eachFault_error.1 hf)
    | error e' =>
      -- the faults of both are collected
      refine eachFault_error.2 fun x hx => ?_
      rcases List.mem_append.1 hx with hx | hx
      · exact eachFault_error.1 hf x hx
      · exact eachFault_error.1 ha x hx

theorem EachFault.within {c : Checked α} (h : EachFault P c) {segment : Segment}
    (hP : ∀ f, P f → Q (f.within segment)) : EachFault Q (c.within segment) := by
  cases c with
  | ok a => exact eachFault_ok a
  | error e =>
    refine eachFault_error.2 fun x hx => ?_
    obtain ⟨f, hf, rfl⟩ := List.mem_map.1 hx
    exact hP f (eachFault_error.1 h f hf)

end Checked

end HdlReview.Validation

namespace HdlReview.Service

open HdlReview.Json HdlReview.Validation HdlReview.Text

variable {α : Type} {name : String} {fields : Fields RawText} {v : Value RawText}

/-! ## Places -/

theorem reach_nil (v : Value RawText) : reach [] v = v := by
  rw [reach] <;> nofun

theorem reach_field (h : Keyed.get? (.ofString name) fields = some v) (place : List Segment) :
    reach (.field name :: place) (.obj fields) = reach place v := by
  rw [reach, h]

/-- Where a field is missing, the place leads to the object. -/
theorem reach_missing (h : Keyed.get? (.ofString name) fields = none) (place : List Segment) :
    reach (.field name :: place) (.obj fields) = .obj fields := by
  rw [reach, h]

/-- **A fault shows the part of a body** at its place. -/
def ShowsPart (body : Value RawText) (f : Fault) : Prop :=
  f.input = (reach f.place body).plain

/-! ## Readers -/

/-- The faults of a value show parts of it. -/
def ShowsParts (read : Reader α) : Prop :=
  ∀ body : Value RawText, (read body.plain).EachFault (ShowsPart body)

/-- The faults of an object's fields show parts of the object. -/
def ShowsFields (read : Fields → Checked α) : Prop :=
  ∀ fields : Fields RawText,
    (read (fieldsMapTexts RawText.plain fields)).EachFault (ShowsPart (.obj fields))

/-- A reader that gives a value or turns down what it was handed. -/
theorem showsParts_of_cases {read : Reader α}
    (h : ∀ v, (∃ a, read v = .ok a) ∨ ∃ defect, read v = reject defect v) : ShowsParts read := by
  intro body
  rcases h body.plain with ⟨a, ha⟩ | ⟨defect, hd⟩
  · rw [ha]
    exact Checked.eachFault_ok a
  · rw [hd]
    refine Checked.eachFault_reject ?_
    rw [ShowsPart, reach_nil]

theorem showsParts_text : ShowsParts text := by
  refine showsParts_of_cases fun v => ?_
  cases v with
  | str s => exact .inl ⟨s, rfl⟩
  | _ => exact .inr ⟨.notText, rfl⟩

theorem showsParts_number : ShowsParts number := by
  refine showsParts_of_cases fun v => ?_
  cases v with
  | float x => exact .inl ⟨x, rfl⟩
  | bool b => exact .inl ⟨_, rfl⟩
  | int n =>
    rw [number]
    split
    · exact .inl ⟨_, rfl⟩
    · exact .inr ⟨_, rfl⟩
  | str s =>
    rw [number]
    split
    · exact .inl ⟨_, rfl⟩
    · exact .inr ⟨_, rfl⟩
  | _ => exact .inr ⟨.notNumber, rfl⟩

theorem showsParts_listed (members : List (String × α)) : ShowsParts (listed members) := by
  refine showsParts_of_cases fun v => ?_
  cases v with
  | str s =>
    rw [listed]
    split
    · exact .inl ⟨_, rfl⟩
    · exact .inr ⟨_, rfl⟩
  | _ => exact .inr ⟨_, rfl⟩

theorem ShowsParts.nullable {read : Reader α} (h : ShowsParts read) :
    ShowsParts (nullable read) := by
  intro body
  have hread := h body
  rw [Validation.nullable.eq_def]
  split
  · exact Checked.eachFault_ok none
  · split
    · exact Checked.eachFault_ok _
    · next e he =>
      rw [he] at hread
      exact Checked.eachFault_error.2 (Checked.eachFault_error.1 hread)

/-! ## Fields -/

theorem ShowsParts.field {read : Reader α} (h : ShowsParts read)
    (hv : Keyed.get? (.ofString name) fields = some v) :
    ((read v.plain).within (.field name)).EachFault (ShowsPart (.obj fields)) := by
  refine (h v).within fun f hf => ?_
  rw [ShowsPart, Fault.within, reach_field hv]
  exact hf

theorem ShowsParts.required {read : Reader α} (h : ShowsParts read)
    (hname : replacement ∉ name.toList) : ShowsFields (required name read) := by
  intro fields
  rw [Validation.required, get?_fieldsMapTexts hname]
  cases hv : Keyed.get? (RawText.ofString name) fields with
  | some v => exact h.field hv
  | none =>
    -- the fault of an absent field shows the whole object
    refine Checked.eachFault_error.2 fun f hf => ?_
    obtain rfl := List.mem_singleton.1 hf
    rw [ShowsPart, reach_missing hv]
    rfl

theorem ShowsParts.optional {read : Reader α} (h : ShowsParts read)
    (hname : replacement ∉ name.toList) (a : α) : ShowsFields (optional name read a) := by
  intro fields
  rw [Validation.optional, get?_fieldsMapTexts hname]
  cases hv : Keyed.get? (RawText.ofString name) fields with
  | some v => exact h.field hv
  | none => exact Checked.eachFault_ok a

end HdlReview.Service

namespace HdlReview.Tools

open HdlReview.Json HdlReview.Validation HdlReview.Service HdlReview.Text

/-! ## Requests -/

theorem showsFields_reviewRequest : ShowsFields ReviewRequest.readFields := fun fields =>
  .ap (.ap (Checked.eachFault_ok _) (showsParts_text.required (by decide) fields))
    ((showsParts_listed _).required (by decide) fields)

theorem showsFields_timingRequest : ShowsFields TimingRequest.readFields := fun fields =>
  .ap (.ap (.ap (Checked.eachFault_ok _) (showsParts_text.required (by decide) fields))
    (showsParts_number.nullable.optional (by decide) _ fields))
    ((showsParts_listed _).optional (by decide) _ fields)

theorem showsFields_crossingRequest : ShowsFields CrossingRequest.readFields := fun fields =>
  .ap (.ap (Checked.eachFault_ok _) (showsParts_text.required (by decide) fields))
    ((showsParts_listed _).nullable.optional (by decide) _ fields)

theorem eachFault_of {α : Type} {P : Fault → Prop} {make : α → Call} {c : Checked α}
    (h : c.EachFault P) : (Call.of make c).EachFault P := by
  cases c with
  | ok a => exact Checked.eachFault_ok _
  | error e => exact Checked.eachFault_error.2 (Checked.eachFault_error.1 h)

/-- **The faults of the arguments of a tool** show the parts of the body at their places. -/
theorem Tool.eachFault_readCall (t : Tool) {body : Value RawText} {fields : Fields}
    (hbody : body.plain = .obj fields) :
    (t.readCall (.obj fields)).EachFault (ShowsPart body) := by
  obtain ⟨rawFields, rfl, rfl⟩ := Value.exists_of_plain_eq_obj hbody
  cases t with
  | review => exact eachFault_of (showsFields_reviewRequest rawFields)
  | timing => exact eachFault_of (showsFields_timingRequest rawFields)
  | crossing => exact eachFault_of (showsFields_crossingRequest rawFields)

end HdlReview.Tools
