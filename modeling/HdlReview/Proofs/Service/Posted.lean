import HdlReview.Proofs.Audit.Logging
import HdlReview.Proofs.Json.Extent
import HdlReview.Proofs.Service.Echo
import HdlReview.Proofs.Service.Faults
import HdlReview.Proofs.Tools.Outcomes
import HdlReview.Service.Server

/-!
# Answers to posted bodies

An operation that reads a body reads the arguments of a tool from it, whether it has a path of its
own or is the call of a tool by name. A body that cannot be read is answered before the operation is
looked at. Otherwise it is rejected with a list of errors, or it is accepted as a call, or there is
no tool of the given name. What is answered then is said here once for each of these cases.

## Main definitions

* `Route.tool?`: the tool whose arguments an operation reads
* `Accepted r route call`: the body holds a call
* `Rejected config r route errors parts limit`: the body is rejected with errors that show some
  parts of it
* `Config.answer config body route call`: the response to a call
* `Config.recorded`: a response that depends on whether the logger takes an entry
* `Tool.route`: the operation at the path of its own that a tool has

## Main results

* `posted_cases`: what can become of a body
* `response_of_accepted`, `response_of_rejected`, `response_of_unknown`, `response_of_unreadable`:
  the responses in each case
* `status_of_data?_eq_error`: the status of the answer to a body that cannot be read
* `allFinite_sentResult`: the results that operations with a path of their own send
-/

namespace HdlReview.Tools

/-- Whether a call is a review of code with more characters than a limit. -/
def Call.exceeds (limit : Int) : Call → Bool
  | review q => limit < q.code.length
  | _ => false

/-- The frequency that a call asks about. -/
def Call.frequency? : Call → Option Decimal.Double
  | timing q => q.clockFrequency
  | _ => none

/-- The operation at the path of its own that a tool has. -/
def Tool.route : Tool → Service.Route
  | review => .review
  | timing => .timing
  | crossing => .crossing

end HdlReview.Tools

namespace HdlReview.Service

open HdlReview.Json HdlReview.Validation HdlReview.Lint HdlReview.Advice HdlReview.Tools
open HdlReview.Text HdlReview.Decimal

variable {config : Config} {occasion : Occasion} {s : State} {r : Request} {route : Route}

/-- The request that posts a data text to a path. -/
def Request.post (path body : String) : Request :=
  ⟨"POST", .ofPath path.toList, some "application/json", Body.ofText? body⟩

/-- The value of a body that is a data text. -/
theorem data?_post {path body : String} (hfits : octetCount body < longBound) (hne : body ≠ "") :
    (Request.post path body).data? = readData body.toList := by
  have htype : isDataType "application/json" = true := by decide
  rw [Request.post, Body.ofText?, dif_pos hfits, Request.data?]
  simp only [hne, if_false, Option.getD_some, htype, if_true]

/-! ## What becomes of a body -/

/-- The tool whose arguments an operation reads. -/
def Route.tool? : Route → Option Tool
  | review => some .review
  | timing => some .timing
  | crossing => some .crossing
  | tool name => Tool.ofName? name
  | _ => none

/-- The defect of a body that is no object. -/
def Route.defect : Route → Defect
  | tool _ => .notObject
  | _ => .notBody

/-- How an operation shows a fault of its arguments. A tool shows it as it is. -/
def Route.shown : Route → Fault → Value
  | tool _, f => f.toValue
  | _, f => (visibleFault (f.within bodyPlace)).toValueWithContext

/-- What an operation shows of a part of the body. A tool shows all of it. -/
def Route.shownPart : Route → Value RawText → Value RawText
  | tool _, v => v
  | _, v => Response.visiblePart v

/-- How many lists and objects inside each other an operation can show of faulty arguments. -/
def Config.depth (config : Config) : Route → Nat
  | .tool _ => config.argumentDepth
  | _ => config.bodyDepth

/-- **The body holds a call**: the arguments of the operation's tool. -/
def Accepted (r : Request) (route : Route) (call : Call) : Prop :=
  ∃ t body fields, route.tool? = some t ∧ r.data? = .ok body ∧ body.plain = .obj fields ∧
    t.readCall (.obj fields) = .ok call

theorem Accepted.exists_data? {call : Call} (h : Accepted r route call) :
    ∃ body, r.data? = .ok body :=
  let ⟨_, body, _, _, hd, _⟩ := h
  ⟨body, hd⟩

/-- **The texts of an object in a body** are not longer than the body. -/
theorem eachText_data? {body : Value RawText} {fields : Fields} (hd : r.data? = .ok body)
    (hfields : body.plain = .obj fields) : body.EachText fun t => t.length < longBound := by
  rw [Request.data?] at hd
  split at hd
  · cases hd
  · next posted _ =>
    split at hd
    · cases hd
    · split at hd
      · -- a data text has no more letters than octets, and no text in it has more letters
        rw [readData] at hd
        split at hd
        · cases hd
        · next t ht =>
          split at hd
          · next v hv =>
            obtain rfl := Except.ok.inj hd
            refine (eachText_readRaw hv).mono fun s hs => ?_
            exact Nat.lt_of_le_of_lt (Nat.le_trans hs (length_decodeText?_le ht)) posted.fits
          · cases hd
      · obtain rfl := Except.ok.inj hd
        cases hfields

/-- The code of a review is the text of its field. -/
theorem get?_code {fields : Fields} {q : ReviewRequest}
    (h : ReviewRequest.readFields fields = .ok q) :
    Keyed.get? "code" fields = some (.str q.code) := by
  rw [ReviewRequest.readFields] at h
  obtain ⟨_, language, htext, -, rfl⟩ := Checked.ap_eq_ok_iff.1 h
  obtain ⟨make, code, hmake, hcode, rfl⟩ := Checked.ap_eq_ok_iff.1 htext
  obtain rfl := Except.ok.inj hmake
  rw [required] at hcode
  split at hcode
  · next v hv =>
    rw [hv]
    cases v with
    | str s => exact congrArg some (congrArg Value.str (Except.ok.inj hcode))
    | _ => cases hcode
  · cases hcode

/-- **The length of code** in a body can be written. -/
theorem Accepted.length_code_lt {q : ReviewRequest} (h : Accepted r route (.review q)) :
    q.code.length < longBound := by
  obtain ⟨t, body, fields, -, hd, hfields, hc⟩ := h
  have hread : ReviewRequest.readFields fields = .ok q := by
    cases t with
    | review =>
      obtain ⟨q', hq, he⟩ := Call.of_eq_ok hc
      rw [Call.review.inj he]
      exact hq
    | timing => exact absurd (Call.of_eq_ok hc) nofun
    | crossing => exact absurd (Call.of_eq_ok hc) nofun
  have htexts := eachText_data? hd hfields
  obtain ⟨rawFields, rfl, rfl⟩ := Value.exists_of_plain_eq_obj hfields
  have hcode := get?_code hread
  rw [get?_fieldsMapTexts (by decide)] at hcode
  obtain ⟨v, hv, hplain⟩ := Option.map_eq_some_iff.1 hcode
  cases v with
  | str t =>
    cases htexts with
    | obj heach =>
      cases heach _ (Keyed.get?_eq_some_mem hv) with
      | str ht =>
        have hlength : q.code.length = t.length := by
          rw [← Value.str.inj hplain, RawText.plain, String.length_ofList, List.length_map]
        rw [hlength]
        exact ht
  | _ => cases hplain

/-- **The body is rejected** with a list of errors: it is no object, or its fields are not the
arguments of the operation's tool. The errors show parts of the body, and with them at most some
number of lists and objects inside each other. -/
inductive Rejected (config : Config) (r : Request) (route : Route) :
    List Value → List (Value RawText) → Nat → Prop
  | notObject {body : Value RawText} : r.data? = .ok body → (∀ fields, body.plain ≠ .obj fields) →
    Rejected config r route
      [(visibleFault ⟨route.defect, [bodyPlace], body.plain⟩).toValueWithContext]
      [Response.visiblePart body] config.bodyDepth
  | arguments {t : Tool} {body : Value RawText} {fields : Fields} {fs : List Fault} :
    route.tool? = some t → r.data? = .ok body → body.plain = .obj fields →
    t.readCall (.obj fields) = .error fs →
    Rejected config r route (fs.map route.shown)
      ((partsAt (fs.map Fault.place) body).map route.shownPart) (config.depth route)

/-- A body that is rejected holds no call. -/
theorem Rejected.not_accepted {errors : List Value} {parts : List (Value RawText)} {limit : Nat}
    (h : Rejected config r route errors parts limit) (call : Call) : ¬ Accepted r route call := by
  rintro ⟨t, body, fields, ht, hd, hfields, hc⟩
  cases h with
  | notObject hd' hv =>
    obtain rfl := Except.ok.inj (hd.symm.trans hd')
    exact hv fields hfields
  | arguments ht' hd' hfields' hc' =>
    obtain rfl := Option.some.inj (ht.symm.trans ht')
    obtain rfl := Except.ok.inj (hd.symm.trans hd')
    obtain rfl := Value.obj.inj (hfields.symm.trans hfields')
    exact absurd (hc.symm.trans hc') nofun

/-- A body that can be read is rejected or accepted, or it calls a tool that does not exist. -/
theorem posted_cases (config : Config) {body : Value RawText} (hroute : route.method = "POST")
    (hd : r.data? = .ok body) :
    (∃ errors parts limit, Rejected config r route errors parts limit) ∨
      (∃ call, Accepted r route call) ∨
      ∃ name fields, route = .tool name ∧ Tool.ofName? name = none ∧ body.plain = .obj fields := by
  by_cases hv : ∃ fields, body.plain = .obj fields
  · obtain ⟨fields, hfields⟩ := hv
    cases ht : route.tool? with
    | some t =>
      cases hc : t.readCall (.obj fields) with
      | ok call => exact .inr (.inl ⟨call, t, body, fields, ht, hd, hfields, hc⟩)
      | error fs => exact .inl ⟨_, _, _, .arguments ht hd hfields hc⟩
    | none =>
      -- of the operations that are posted to, only a tool's may have no tool
      cases route with
      | tool name => exact .inr (.inr ⟨name, fields, rfl, ht, hfields⟩)
      | health => exact absurd hroute (by decide)
      | tools => exact absurd hroute (by decide)
      | _ => cases ht
  · exact .inl ⟨_, _, _, .notObject hd fun fields h => hv ⟨fields, h⟩⟩

/-- An error is finite if the part that it shows can be sent again. -/
theorem allFinite_shown {body : Value RawText} {f : Fault} {limit : Nat} (hf : ShowsPart body f)
    (h : (route.shownPart (reach f.place body)).sendable limit = true) :
    (route.shown f).allFinite = true := by
  have hfinite := Value.allFinite_plain _ h
  cases route with
  | tool name =>
    refine (allFinite_toValue f).trans ?_
    rw [hf]
    exact hfinite
  | _ =>
    refine (allFinite_toValueWithContext _).trans ?_
    change (visible f.input).allFinite = true
    rw [hf, ← plain_visiblePart]
    exact hfinite

/-- **The errors of a rejected body are finite** if the parts that they show can be sent again. -/
theorem Rejected.allFinite {errors : List Value} {parts : List (Value RawText)} {limit : Nat}
    (h : Rejected config r route errors parts limit)
    (hparts : ∀ v ∈ parts, v.sendable limit = true) : ∀ e ∈ errors, e.allFinite = true := by
  cases h with
  | @notObject body hd hv =>
    intro e he
    obtain rfl := List.mem_singleton.1 he
    refine (allFinite_toValueWithContext _).trans ?_
    change (visible body.plain).allFinite = true
    rw [← plain_visiblePart]
    exact Value.allFinite_plain _ (hparts _ (List.mem_singleton_self _))
  | @arguments t body fields fs ht hd hfields hc =>
    intro e he
    obtain ⟨f, hf, rfl⟩ := List.mem_map.1 he
    refine allFinite_shown (t.eachFault_readCall hfields fs hc f hf) (hparts _ ?_)
    exact List.mem_map_of_mem (List.mem_map_of_mem (List.mem_map_of_mem hf))

/-! ## Reading the body -/

section Read

variable {α : Type} {limit : Nat} {defect : Defect} {read : Fields → Checked α}
  {body : Value RawText}

theorem read_of_error {e : Response} (hd : r.data? = .error e) :
    r.read limit defect read = .error e := by
  rw [Request.read, hd]

theorem read_of_ok {fields : Fields} {a : α} (hd : r.data? = .ok body)
    (hfields : body.plain = .obj fields) (h : read fields = .ok a) :
    r.read limit defect read = .ok ⟨body, a⟩ := by
  simp only [Request.read, hd, hfields, readBody, bodyFields, h]

theorem read_of_faults {fields : Fields} {fs : List Fault} (hd : r.data? = .ok body)
    (hfields : body.plain = .obj fields) (h : read fields = .error fs) :
    r.read limit defect read = .error (.toFaulty limit body fs) := by
  simp only [Request.read, hd, hfields, readBody, bodyFields, h]

theorem read_of_not_object (hd : r.data? = .ok body) (hv : ∀ fields, body.plain ≠ .obj fields) :
    r.read limit defect read = .error (.toFaulty limit body [⟨defect, [], body.plain⟩]) := by
  have hfields : bodyFields defect body.plain = reject defect body.plain := by
    cases hplain : body.plain with
    | obj fields => exact absurd hplain (hv fields)
    | _ => rfl
  simp only [Request.read, hd, readBody, hfields, reject]

end Read

theorem toFaulty_eq (limit : Nat) (body : Value RawText) (fs : List Fault) :
    Response.toFaulty limit body fs =
      .repeating limit ((partsAt (fs.map Fault.place) body).map Response.visiblePart)
        (.details 422
          (.list (fs.map fun f => (visibleFault (f.within bodyPlace)).toValueWithContext))) := by
  rw [Response.toFaulty, faults_eq, List.map_map]
  rfl

/-! ## Responses -/

/-- A response to what is recorded in the audit log: an internal error if the logger refuses. -/
def Config.recorded (config : Config) (response : Response) : Response :=
  if config.logger.refuses then .internalError else response

theorem response_audit {e : Audit.Entry} (he : e.totalIssues.natAbs < longBound) (o : Outcome) :
    (o.audit config occasion e).response = config.recorded o.response := by
  rw [Outcome.audit, Config.recorded]
  cases h : config.logger.refuses with
  | true => rw [Audit.Logger.log_of_refuses h]; rfl
  | false =>
    rw [Audit.Logger.error?_log h (Audit.Entry.line_of_lt he)]
    rfl

/-- The number of issues in code can be written if the length of the code can. -/
theorem natAbs_totalIssues_lt {q : ReviewRequest} (h : q.code.length < longBound) :
    ((review q.language q.code.toList).totalIssues : Int).natAbs < longBound := by
  have hissues := totalIssues_review_le q.code.toList q.language
  have hbound : 12 < longBound := by decide +kernel
  have hlength : q.code.toList.length = q.code.length := rfl
  omega

theorem tooLong_of_lt {limit : Int} (h : limit.natAbs < longBound) :
    tooLong limit = .detail 400 ("Code exceeds maximum length of " ++ intText limit ++
      " characters") := by
  rw [tooLong, writeInt_of_lt h]

/-- A limit that cannot be written cannot be named. -/
theorem tooLong_of_le {limit : Int} (h : longBound ≤ limit.natAbs) :
    tooLong limit = .internalError := by
  rw [tooLong, writeInt_of_le h]

theorem status_tooLong (limit : Int) :
    (tooLong limit).status = 400 ∨ (tooLong limit).status = 500 := by
  rcases Nat.lt_or_ge limit.natAbs longBound with h | h
  · rw [tooLong_of_lt h, status_detail]
    exact .inl rfl
  · rw [tooLong_of_le h]
    exact .inr rfl

/-- A result as operations with a path of their own send it. -/
def sentResult : Result → Result
  | .timing g => .timing (sentGuidance g)
  | result => result

theorem repeated_sentResult (result : Result) : repeated (sentResult result) = repeated result := by
  cases result <;> rfl

/-- **The response to a call** that a body holds. A tool just sends the result. An operation with a
path of its own turns down code that is too long, records the call and leaves out a frequency that
is not finite. -/
def Config.answer (config : Config) (body : Value RawText) : Route → Call → Response
  | .tool _, call => sendResult body call.run.1
  | _, call =>
    if call.exceeds config.maxCodeLength then tooLong config.maxCodeLength
    else config.recorded (sendResult body (sentResult call.run.1))

theorem response_reviewOutcome (body : Value RawText) {q : ReviewRequest}
    (hq : q.code.length < longBound) :
    (reviewOutcome config occasion s q).response = config.answer body .review (.review q) := by
  rw [reviewOutcome, Config.answer]
  by_cases h : config.maxCodeLength < q.code.length
  · rw [if_pos h, if_pos (by simpa [Call.exceeds] using h), State.answer]
  · rw [if_neg h, if_neg (by simpa [Call.exceeds] using h)]
    exact response_audit (natAbs_totalIssues_lt hq) _
  · nofun

/-- **The response to a body that holds a call**. -/
theorem response_of_accepted {call : Call} {body : Value RawText} (h : Accepted r route call)
    (hd : r.data? = .ok body) :
    (operate config occasion s r route).response = config.answer body route call := by
  have hcode : ∀ q, call = .review q → q.code.length < longBound := by
    rintro q rfl
    exact h.length_code_lt
  obtain ⟨t, body', fields, ht, hd', hfields, hc⟩ := h
  obtain rfl := Except.ok.inj (hd.symm.trans hd')
  have hbound : 0 < longBound := by decide +kernel
  have hadvice : ∀ operation, (adviceEntry occasion operation).totalIssues.natAbs < longBound :=
    fun _ => hbound
  cases route with
  | review =>
    obtain rfl := Option.some.inj ht
    obtain ⟨q, hq, rfl⟩ := Call.of_eq_ok hc
    rw [operate, read_of_ok hd hfields hq]
    exact response_reviewOutcome body (hcode q rfl)
  | timing =>
    obtain rfl := Option.some.inj ht
    obtain ⟨q, hq, rfl⟩ := Call.of_eq_ok hc
    rw [operate, read_of_ok hd hfields hq]
    exact response_audit (hadvice _) _
  | crossing =>
    obtain rfl := Option.some.inj ht
    obtain ⟨q, hq, rfl⟩ := Call.of_eq_ok hc
    rw [operate, read_of_ok hd hfields hq]
    exact response_audit (hadvice _) _
  | tool name =>
    -- the body of a tool's call is read as any object; the tool reads its arguments from it
    rw [Route.tool?] at ht
    rw [operate, read_of_ok hd hfields rfl, State.withBody, toolOutcome, execute, ht]
    simp only [hc]
    rfl
  | _ => cases ht

theorem response_withBody_of_faults {α : Type} {outcome : Posted α → Outcome} {defect : Defect}
    {read : Fields → Checked α} {limit : Nat} {body : Value RawText} {fields : Fields}
    {fs : List Fault} (hd : r.data? = .ok body) (hfields : body.plain = .obj fields)
    (h : read fields = .error fs) :
    (s.withBody outcome (r.read limit defect read)).response =
      .repeating limit ((partsAt (fs.map Fault.place) body).map Response.visiblePart)
        (.details 422
          (.list (fs.map fun f => (visibleFault (f.within bodyPlace)).toValueWithContext))) := by
  rw [read_of_faults hd hfields h, State.withBody, State.answer, toFaulty_eq]

theorem details_of_rejected {errors : List Value} {parts : List (Value RawText)} {limit : Nat}
    (hroute : route.method = "POST") (h : Rejected config r route errors parts limit) :
    (operate config occasion s r route).response =
      .repeating limit parts (.details 422 (.list errors)) := by
  cases h with
  | notObject hd hv =>
    cases route with
    | health => exact absurd hroute (by decide)
    | tools => exact absurd hroute (by decide)
    | _ =>
      rw [operate, read_of_not_object hd hv, toFaulty_eq]
      simp only [partsAt, List.map_cons, List.map_nil, reach_nil]
      rfl
  | @arguments t body fields fs ht hd hfields hc =>
    cases route with
    | review =>
      obtain rfl := Option.some.inj ht
      have hread : ReviewRequest.readFields fields = .error fs := Call.of_eq_error hc
      exact response_withBody_of_faults hd hfields hread
    | timing =>
      obtain rfl := Option.some.inj ht
      have hread : TimingRequest.readFields fields = .error fs := Call.of_eq_error hc
      exact response_withBody_of_faults hd hfields hread
    | crossing =>
      obtain rfl := Option.some.inj ht
      have hread : CrossingRequest.readFields fields = .error fs := Call.of_eq_error hc
      exact response_withBody_of_faults hd hfields hread
    | tool name =>
      rw [Route.tool?] at ht
      rw [operate, read_of_ok hd hfields rfl, State.withBody, toolOutcome, execute, ht]
      have hparts : (partsAt (fs.map Fault.place) body).map (Route.tool name).shownPart =
          partsAt (fs.map Fault.place) body := List.map_id _
      simp only [hc, hparts]
      rfl
    | _ => cases ht

/-- **The response to a body that is rejected**: its errors, if the parts that these show can be
sent again. -/
theorem response_of_rejected {errors : List Value} {parts : List (Value RawText)} {limit : Nat}
    (hroute : route.method = "POST") (h : Rejected config r route errors parts limit) :
    (operate config occasion s r route).response =
      .repeating limit parts (.sent 422 (.obj [("detail", .list errors)])) := by
  rw [details_of_rejected hroute h]
  by_cases hparts : ∀ v ∈ parts, v.sendable limit = true
  · rw [details_of_finite (h.allFinite hparts)]
  · obtain ⟨v, hm, hv⟩ : ∃ v ∈ parts, v.sendable limit = false := by simpa using hparts
    rw [repeating_of_not_sendable hm hv, repeating_of_not_sendable hm hv]

/-- **The response to the call of a tool that does not exist**. -/
theorem response_of_unknown {name : String} {body : Value RawText} {fields : Fields}
    (hn : Tool.ofName? name = none) (hd : r.data? = .ok body)
    (hfields : body.plain = .obj fields) :
    (operate config occasion s r (.tool name)).response =
      .detail 404 ("Unknown tool: " ++ name) := by
  rw [operate, read_of_ok hd hfields rfl, State.withBody, toolOutcome, execute, hn]
  rfl

/-- **The response to a body that cannot be read** is the same for all operations. -/
theorem response_of_unreadable {e : Response} (hroute : route.method = "POST")
    (hd : r.data? = .error e) : (operate config occasion s r route).response = e := by
  cases route with
  | health => exact absurd hroute (by decide)
  | tools => exact absurd hroute (by decide)
  | _ =>
    rw [operate, read_of_error hd]
    rfl

theorem respond_of_route (hp : Route.ofPath? r.target.path = some route)
    (hm : r.method = route.method) :
    respond config occasion s r = operate config occasion s r route := by
  rw [respond, hp]
  exact if_pos hm

/-! ## Bodies that cannot be read -/

theorem faults_of_finite {fs : List Fault} (h : ∀ f ∈ fs, f.input.allFinite = true) :
    Response.faults fs = .sent 422
      (.obj [("detail", .list (fs.map fun f => (visibleFault f).toValueWithContext))]) := by
  rw [faults_eq, details_of_finite]
  intro v hv
  obtain ⟨f, hf, rfl⟩ := List.mem_map.1 hv
  rw [allFinite_toValueWithContext]
  exact f.input.allFinite_filterNames _ (h f hf)

theorem status_malformedBody (m : Malformed) :
    (malformedBody m).status = 400 ∨ (malformedBody m).status = 422 := by
  rw [malformedBody]
  split
  · exact .inl (congrArg Response.status (detail_eq _ _))
  · exact .inl (congrArg Response.status (detail_eq _ _))
  · exact .inl (congrArg Response.status (detail_eq _ _))
  · refine .inr (congrArg Response.status (faults_of_finite ?_))
    simp [Value.allFinite, fieldsFinite]

/-- The status of the response to a body that cannot be read. -/
theorem status_of_data?_eq_error {e : Response} (h : r.data? = .error e) :
    e.status = 400 ∨ e.status = 422 := by
  have hmissing : missingBody.status = 422 := rfl
  have hunreadable : unreadableBody.status = 400 := rfl
  -- the cases in order: no body, an empty body, a data text, any other text
  rw [Request.data?] at h
  split at h
  · exact .inr (Except.error.inj h ▸ hmissing)
  · split at h
    · exact .inr (Except.error.inj h ▸ hmissing)
    · split at h
      · rw [readData] at h
        split at h
        · exact .inl (Except.error.inj h ▸ hunreadable)
        · split at h
          · exact absurd h nofun
          · next m _ => exact Except.error.inj h ▸ status_malformedBody m
      · exact absurd h nofun

/-! ## Results -/

theorem allFinite_issue (i : Issue) : i.toValue.allFinite = true := by
  simp [Issue.toValue, Value.allFinite, fieldsFinite, allFinite_ofOption]

theorem allFinite_report (report : Report) : report.toValue.allFinite = true := by
  simp [Report.toValue, Value.allFinite, fieldsFinite, allFinite_ofOption, allFinite_texts,
    listFinite_map allFinite_issue]

theorem allFinite_recommendation (x : Recommendation) : x.toValue.allFinite = true := by
  simp [Recommendation.toValue, Value.allFinite, fieldsFinite, allFinite_ofOption]

theorem allFinite_crossingGuidance (g : CrossingGuidance) : g.toValue.allFinite = true := by
  simp [CrossingGuidance.toValue, Value.allFinite, fieldsFinite, allFinite_ofOption,
    allFinite_texts, listFinite_map allFinite_recommendation]

theorem allFinite_timingStep (x : TimingStep) : x.toValue.allFinite = true := by
  simp [TimingStep.toValue, Value.allFinite, fieldsFinite, allFinite_ofOption, allFinite_texts]

theorem allFinite_timingGuidance (g : TimingGuidance) :
    g.toValue.allFinite = g.clockFrequency.all Decimal.Double.isFinite := by
  simp [TimingGuidance.toValue, Value.allFinite, fieldsFinite, allFinite_ofOption,
    allFinite_texts, listFinite_map allFinite_timingStep]

theorem allFinite_run (call : Call) :
    call.run.1.toValue.allFinite = call.frequency?.all Decimal.Double.isFinite := by
  cases call with
  | review q => exact allFinite_report _
  | timing q => exact allFinite_timingGuidance _
  | crossing q => exact allFinite_crossingGuidance _

theorem allFinite_sentResult (result : Result) : (sentResult result).toValue.allFinite = true := by
  cases result with
  | review report => exact allFinite_report report
  | timing g =>
    refine (allFinite_timingGuidance (sentGuidance g)).trans ?_
    cases h : g.clockFrequency with
    | none => simp [sentGuidance, h]
    | some x => by_cases hx : x.isFinite = true <;> simp [sentGuidance, h, Option.filter, hx]
  | crossing g => exact allFinite_crossingGuidance g

/-- Nothing is left out of a result if the frequency is finite. -/
theorem sentResult_run {call : Call} (h : call.frequency?.all Decimal.Double.isFinite = true) :
    sentResult call.run.1 = call.run.1 := by
  cases call with
  | timing q =>
    obtain ⟨issue, clock, violation⟩ := q
    cases clock with
    | none => rfl
    | some x =>
      have hx : x.isFinite = true := by simpa [Call.frequency?] using h
      simp [Call.run, sentResult, sentGuidance, timingGuidance, Option.filter, hx]
  | _ => rfl

/-! ## Operations with a path of their own -/

theorem tool?_route (t : Tool) : t.route.tool? = some t := by
  cases t <;> rfl

theorem method_route (t : Tool) : t.route.method = "POST" := by
  cases t <;> rfl

theorem route_ne_tool (t : Tool) (name : String) : t.route ≠ .tool name := by
  cases t <;> nofun

theorem answer_of_exceeds (hroute : ∀ name, route ≠ .tool name) {body : Value RawText} {call : Call}
    (h : call.exceeds config.maxCodeLength = true) :
    config.answer body route call = tooLong config.maxCodeLength := by
  rw [Config.answer, if_pos h]
  exact hroute

theorem answer_eq_of_not_refuses (hroute : ∀ name, route ≠ .tool name) {l : Audit.Logger}
    {body : Value RawText} {call : Call} (h : config.logger.refuses = false)
    (h' : l.refuses = false) :
    { config with logger := l }.answer body route call = config.answer body route call := by
  rw [Config.answer, Config.answer, Config.recorded, Config.recorded, h, h']
  · exact hroute
  · exact hroute

theorem sendResult_of_finite {body : Value RawText} {result : Result}
    (h : result.toValue.allFinite = true) :
    sendResult body result =
      .repeating 0 (partsAt (repeated result) body) (.sent 200 result.toValue) := by
  rw [sendResult, data_of_finite h]

theorem answer_of_not_exceeds (hroute : ∀ name, route ≠ .tool name) {body : Value RawText}
    {call : Call} (h : call.exceeds config.maxCodeLength = false) :
    config.answer body route call = config.recorded
      (.repeating 0 (partsAt (repeated call.run.1) body)
        (.sent 200 (sentResult call.run.1).toValue)) := by
  rw [Config.answer, if_neg (by rw [h]; decide), sendResult_of_finite (allFinite_sentResult _),
    repeated_sentResult]
  exact hroute

end HdlReview.Service
