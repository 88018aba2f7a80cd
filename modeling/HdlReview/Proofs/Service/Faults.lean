import HdlReview.Proofs.Json.Finite
import HdlReview.Proofs.Json.Sendable
import HdlReview.Service.Message

/-!
# Data and faults that are sent

Data are sent only if all numbers in them are finite, and a response that repeats parts of a body
only if these can be sent again; otherwise the answer is an internal error. The faults of a body are
sent without the internal fields of what they show, and nothing else of a fault is left out. So the
data of a fault are finite just if what it shows is.

## Main definitions

* `Response.sent status v`: the response that carries the data `v`
* `visible v`, `visibleFault f`: a value and a fault without internal fields

## Main results

* `repeating_of_sendable`, `repeating_of_not_sendable`: when a response is sent that repeats parts
* `details_of_finite`: when details are sent
* `faults_eq`: the faults of a body as they are sent
* `allFinite_toValue`, `allFinite_toValueWithContext`: a fault is finite if what it shows is
-/

namespace HdlReview.Service

open HdlReview.Json HdlReview.Validation HdlReview.Text

/-! ## Data that are sent -/

/-- The response that carries some data. -/
def Response.sent (status : Nat) (v : Value) : Response :=
  ⟨status, .data v, none, none⟩

@[simp] theorem status_sent (status : Nat) (v : Value) : (Response.sent status v).status = status :=
  rfl

theorem data_of_finite {status : Nat} {v : Value} (h : v.allFinite = true) :
    Response.data status v = .sent status v := by
  rw [Response.data, if_pos h, Response.sent]

theorem data_of_not_finite {status : Nat} {v : Value} (h : v.allFinite = false) :
    Response.data status v = .internalError := by
  rw [Response.data, h]
  rfl

/-- **A response that repeats parts** is sent if all of them can be sent again. -/
theorem repeating_of_sendable {limit : Nat} {parts : List (Value RawText)} {response : Response}
    (h : ∀ v ∈ parts, v.sendable limit = true) :
    Response.repeating limit parts response = response :=
  if_pos (List.all_eq_true.2 h)

/-- **A response that repeats parts** is not sent if one of them cannot be sent again. -/
theorem repeating_of_not_sendable {limit : Nat} {parts : List (Value RawText)} {v : Value RawText}
    {response : Response} (hm : v ∈ parts) (h : v.sendable limit = false) :
    Response.repeating limit parts response = .internalError := by
  refine if_neg fun hall => ?_
  rw [List.all_eq_true.1 hall v hm] at h
  cases h

theorem repeating_eq_or {limit : Nat} {parts : List (Value RawText)} {response : Response} :
    Response.repeating limit parts response = response ∨
      Response.repeating limit parts response = .internalError := by
  rw [Response.repeating]
  split
  · exact .inl rfl
  · exact .inr rfl

theorem eq_sent_of_repeating {limit status : Nat} {parts : List (Value RawText)} {v : Value}
    {response : Response} (h : Response.repeating limit parts response = .sent status v) :
    response = .sent status v := by
  rcases @repeating_eq_or limit parts response with hr | hr
  · exact hr.symm.trans h
  · rw [hr] at h
    simp [Response.internalError, Response.sent] at h

theorem allFinite_details_iff {vs : List Value} :
    (Value.obj [("detail", .list vs)]).allFinite = true ↔ ∀ v ∈ vs, v.allFinite = true := by
  rw [allFinite_obj_iff, List.forall_mem_singleton, allFinite_list_iff]

/-- **Details are sent** if all of them are finite. -/
theorem details_of_finite {status : Nat} {vs : List Value} (h : ∀ v ∈ vs, v.allFinite = true) :
    Response.details status (.list vs) = .sent status (.obj [("detail", .list vs)]) :=
  data_of_finite (allFinite_details_iff.2 h)

theorem detail_eq (status : Nat) (message : String) :
    Response.detail status message = .sent status (.obj [("detail", .str message)]) := by
  have hfinite : (Value.obj [("detail", .str message)]).allFinite = true := rfl
  exact data_of_finite hfinite

@[simp] theorem status_detail (status : Nat) (message : String) :
    (Response.detail status message).status = status := by
  rw [detail_eq, status_sent]

/-! ## Faults that are sent -/

/-- What the faults of a body show of a value: all but internal fields. -/
def visible (v : Value) : Value :=
  v.filterNames (! Response.isInternalName ·)

/-- A fault of a body as it is shown. -/
def visibleFault (f : Fault) : Fault :=
  { f with input := visible f.input }

theorem plain_visiblePart (v : Value RawText) :
    (Response.visiblePart v).plain = visible v.plain :=
  v.plain_filterNames (! Response.isInternalName ·)

theorem visible_str (s : String) : visible (.str s) = .str s := rfl

theorem visible_list (items : List Value) : visible (.list items) = .list (items.map visible) :=
  filterNames_list items

theorem visible_obj_of_names {fields : Fields}
    (h : ∀ f ∈ fields, Response.isInternalName f.1 = false) :
    visible (.obj fields) = .obj (fields.map fun f => (f.1, visible f.2)) := by
  rw [visible, filterNames_obj, List.filter_eq_self.2]
  · rfl
  · intro f hf
    rw [h f hf, Bool.not_false]

theorem visible_place (place : List Segment) :
    visible (.list (place.map Segment.toValue)) = .list (place.map Segment.toValue) := by
  have hstep : ∀ segment : Segment, visible segment.toValue = segment.toValue := by
    rintro (name | index) <;> rfl
  rw [visible_list, List.map_map]
  exact congrArg Value.list (List.map_congr_left fun segment _ => hstep segment)

theorem visible_context {d : Defect} {c : Value} (h : d.context = some c) : visible c = c := by
  cases d with
  | notListed choices =>
    obtain rfl := Option.some.inj h
    rfl
  | unreadableBody reason =>
    obtain rfl := Option.some.inj h
    rfl
  | _ => exact absurd h nofun

theorem describe_visibleFault (f : Fault) :
    (visibleFault f).describe = f.describe.map fun p => (p.1, visible p.2) := by
  simp only [Fault.describe, List.map_cons, List.map_nil, visible_str, visible_place]
  rfl

theorem isInternalName_of_mem {name : String} (h : name ∈ ["type", "loc", "msg", "input", "ctx"]) :
    Response.isInternalName name = false := by
  have hnames : ∀ name ∈ ["type", "loc", "msg", "input", "ctx"],
      Response.isInternalName name = false := by decide
  exact hnames name h

/-- Nothing is left out of a fault but internal fields of what it shows. -/
theorem visible_toValueWithContext (f : Fault) :
    visible f.toValueWithContext = (visibleFault f).toValueWithContext := by
  have hcontext : (f.defect.context.map fun c => ("ctx", c)).toList.map
      (fun p => (p.1, visible p.2)) = (f.defect.context.map fun c => ("ctx", c)).toList := by
    cases hc : f.defect.context with
    | none => rfl
    | some c => simp [visible_context hc]
  -- the names of the fields are fixed, and none of them is internal
  have hnames : ∀ p ∈ f.describe ++ (f.defect.context.map fun c => ("ctx", c)).toList,
      Response.isInternalName p.1 = false := by
    intro p hp
    rcases List.mem_append.1 hp with hd | hc
    · have hname : p.1 ∈ ["type", "loc", "msg", "input"] := List.mem_map_of_mem hd
      exact isInternalName_of_mem (List.mem_append_left ["ctx"] hname)
    · obtain ⟨c, -, rfl⟩ := by simpa using hc
      exact isInternalName_of_mem (by simp)
  rw [Fault.toValueWithContext, visible_obj_of_names hnames, List.map_append, hcontext,
    ← describe_visibleFault]
  rfl

/-- **The faults of a body** as they are sent. -/
theorem faults_eq (fs : List Fault) :
    Response.faults fs =
      .details 422 (.list (fs.map fun f => (visibleFault f).toValueWithContext)) := by
  rw [Response.faults]
  change Response.details 422 (visible _) = _
  rw [visible_list, List.map_map]
  simp only [Function.comp_def, visible_toValueWithContext]

/-! ## Finite faults -/

theorem listFinite_place (place : List Segment) :
    listFinite (place.map Segment.toValue) = true := by
  refine listFinite_map ?_ place
  rintro (name | index) <;> rfl

theorem fieldsFinite_context (d : Defect) :
    fieldsFinite (d.context.map fun c => ("ctx", c)).toList = true := by
  cases d <;> rfl

theorem allFinite_toValue (f : Fault) : f.toValue.allFinite = f.input.allFinite := by
  simp [Fault.toValue, Fault.describe, Value.allFinite, fieldsFinite, listFinite_place]

theorem allFinite_toValueWithContext (f : Fault) :
    f.toValueWithContext.allFinite = f.input.allFinite := by
  rw [Fault.toValueWithContext, Value.allFinite, fieldsFinite_append, fieldsFinite_context,
    Bool.and_true]
  exact allFinite_toValue f

end HdlReview.Service
