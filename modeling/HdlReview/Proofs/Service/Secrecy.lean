import HdlReview.Proofs.Service.Failures
import HdlReview.Proofs.Service.Trail
import HdlReview.Proofs.Tools.RoundTrip
import Mathlib.Data.List.Forall2

/-!
# What the log does not tell

Nothing of the texts in a request reaches the log, and of the rest of it only what is seen from
outside anyway: the operation and whether it had success, and for a review the language and the
number of issues. There is one exception. Where the server fails, it is not seen from outside
whether the request was recorded before, and this depends on the body alone. So two runs that agree
in these points on every request append the same text, whatever their requests hold.

## Main definitions

* `SeenAlike limit x x'`: two requests with their outcomes agree in what is seen from outside
* `Alike limit x x'`: besides, where the server failed, both or none were to be recorded
* `StatesAlike s s'`: two states with the same clock in which the same attempts to open a file fail
* `RunsAlike related config s s' requests requests'`: two runs are related request by request

## Main results

* `Alike.entry_eq`: requests that are alike have the same entry
* `exists_line_of_alike`: they append the same line
* `log_eq_of_alike`: runs that are alike append the same text
* `not_log_eq_of_seenAlike`: runs that agree in what is seen may not
-/

namespace HdlReview.Tools

/-- The tool that a call is for. -/
def Call.tool : Call → Tool
  | review _ => .review
  | timing _ => .timing
  | crossing _ => .crossing

theorem Call.tool_of_readCall {t : Tool} {v : Json.Value} {call : Call}
    (h : t.readCall v = .ok call) : call.tool = t := by
  cases t with
  | review =>
    obtain ⟨q, -, rfl⟩ := Call.of_eq_ok h
    rfl
  | timing =>
    obtain ⟨q, -, rfl⟩ := Call.of_eq_ok h
    rfl
  | crossing =>
    obtain ⟨q, -, rfl⟩ := Call.of_eq_ok h
    rfl

end HdlReview.Tools

namespace HdlReview.Service

open HdlReview.Audit HdlReview.Json HdlReview.Lint HdlReview.Tools HdlReview.Text

variable {config : Config} {occasion occasion' : Occasion} {s s' : State} {r r' : Request}
  {t : Tool} {call call' : Call} {limit : Int}

theorem Recordable.tool_eq (h : Recordable limit r t call) : call.tool = t := by
  obtain ⟨t', body, fields, ht, -, -, hc⟩ := h.accepted
  obtain rfl := Option.some.inj ((tool?_route t).symm.trans ht)
  exact Call.tool_of_readCall hc

/-! ## Requests that are alike -/

/-- **Two requests with their outcomes agree in what is seen from outside**: the occasion, the
method, the operation and the status, and for reviews the language and the number of issues. -/
structure SeenAlike (limit : Int) (x x' : (Occasion × Request) × Outcome) : Prop where
  occasion : x'.1.1 = x.1.1
  method : x'.1.2.method = x.1.2.method
  route : Route.ofPath? x'.1.2.target.path = Route.ofPath? x.1.2.target.path
  status : x'.2.response.status = x.2.response.status
  review : ∀ q q', Recordable limit x.1.2 .review (.review q) →
    Recordable limit x'.1.2 .review (.review q') →
    q'.language = q.language ∧ (review q'.language q'.code.toList).totalIssues =
      (review q.language q.code.toList).totalIssues

/-- **Two requests are alike**: they agree in what is seen from outside, and where the server
failed, both were to be recorded or none. -/
structure Alike (limit : Int) (x x' : (Occasion × Request) × Outcome) : Prop
    extends SeenAlike limit x x' where
  failed : x.2.response.status = 500 →
    ((∃ t call, Recordable limit x.1.2 t call) ↔ ∃ t call, Recordable limit x'.1.2 t call)

/-- **Two states are alike**: the clocks show the same, and the same attempts to open a file fail.
The files may have different texts. -/
structure StatesAlike (s s' : State) : Prop where
  readings : s'.readings = s.readings
  folders : s'.directory.folders = s.directory.folders
  denials : s'.directory.denials = s.directory.denials

theorem elapsed_eq (h : s'.readings = s.readings) : s'.elapsed = s.elapsed := by
  simp only [State.elapsed, State.nextReading, State.afterReading, h]

theorem readings_next (h : s'.readings = s.readings) (htool : call'.tool = call.tool) :
    (call'.next s').readings = (call.next s).readings := by
  cases call <;> cases call' <;> cases htool <;>
    simp only [Call.next, State.afterReading, h]

/-- **Requests that are alike have the same entry**, if the clock shows the same. -/
theorem Alike.entry_eq {o o' : Outcome} (h : Alike limit ((occasion, r), o) ((occasion', r'), o'))
    (hreadings : s'.readings = s.readings) (hr : Recordable limit r t call)
    (hr' : Recordable limit r' t call') : call'.entry occasion' s' = call.entry occasion s := by
  obtain rfl : occasion' = occasion := h.occasion
  have htool : call'.tool = call.tool := hr'.tool_eq.trans hr.tool_eq.symm
  cases call with
  | review q =>
    cases call' with
    | review q' =>
      obtain rfl : Tool.review = t := hr.tool_eq
      obtain ⟨hlanguage, hissues⟩ := h.review q q' hr hr'
      rw [Call.entry, Call.entry, hissues, hlanguage, elapsed_eq hreadings]
    | _ => cases htool
  | timing q =>
    cases call' with
    | timing q' => rfl
    | _ => cases htool
  | crossing q =>
    cases call' with
    | crossing q' => rfl
    | _ => cases htool

/-- Of requests that are alike, both are recorded or none. -/
theorem Alike.recordable
    (h : Alike config.maxCodeLength ((occasion, r), respond config occasion s r)
      ((occasion', r'), respond config occasion' s' r'))
    (hr : Recordable config.maxCodeLength r t call) :
    ∃ call', Recordable config.maxCodeLength r' t call' := by
  rcases @Recordable.status config occasion s r t call hr with hstatus | hstatus
  · exact exists_recordable_of_status (h.route.trans hr.path) (h.method.trans hr.method)
      (h.status.trans hstatus)
  · -- what the server failed on goes to the same operation, and so is a call of the same tool
    obtain ⟨t', call', hr'⟩ := (h.failed hstatus).1 ⟨t, call, hr⟩
    have hroute : t'.route = t.route :=
      Option.some.inj (hr'.path.symm.trans (h.route.trans hr.path))
    have htool : t' = t := by
      cases t <;> cases t' <;> first | rfl | cases hroute
    exact ⟨call', htool ▸ hr'⟩

theorem Alike.symm {x x' : (Occasion × Request) × Outcome} (h : Alike limit x x') :
    Alike limit x' x where
  occasion := h.occasion.symm
  method := h.method.symm
  route := h.route.symm
  status := h.status.symm
  review q q' hr hr' := by
    obtain ⟨hlanguage, hissues⟩ := h.review q' q hr' hr
    exact ⟨hlanguage.symm, hissues.symm⟩
  failed hstatus := (h.failed (h.status.symm.trans hstatus)).symm

/-- **Requests that are alike append the same line**, or none, and leave states that are alike. -/
theorem exists_line_of_alike (hs : StatesAlike s s')
    (h : Alike config.maxCodeLength ((occasion, r), respond config occasion s r)
      ((occasion', r'), respond config occasion' s' r')) :
    (∃ line, config.logger.text (respond config occasion s r).state.directory =
        config.logger.text s.directory ++ line ∧
      config.logger.text (respond config occasion' s' r').state.directory =
        config.logger.text s'.directory ++ line) ∧
      StatesAlike (respond config occasion s r).state (respond config occasion' s' r').state := by
  rcases state_respond_cases config occasion s r with ⟨t, call, hr, hstate⟩ | ⟨hnot, hstate⟩
  · obtain ⟨call', hr'⟩ := h.recordable hr
    have hentry := h.entry_eq hs.readings hr hr'
    obtain rfl : occasion' = occasion := h.occasion
    rw [hstate, hr'.state, hentry]
    constructor
    · exact Logger.exists_text_after (Logger.opens_congr hs.folders hs.denials) hr.line_entry
    · have hafter := fun d => @Logger.folders_and_denials_after config.logger d occasion'.now
        (call.entry occasion' s)
      refine ⟨readings_next hs.readings (hr'.tool_eq.trans hr.tool_eq.symm), ?_, ?_⟩
      · rw [(hafter _).1, (hafter _).1, hs.folders]
      · rw [(hafter _).2, (hafter _).2, hs.denials]
  · have hnot' : ∀ t call, ¬ Recordable config.maxCodeLength r' t call := by
      intro t call hc
      obtain ⟨call', hr⟩ := h.symm.recordable hc
      exact hnot t call' hr
    rw [hstate, state_of_not_recordable hnot']
    exact ⟨⟨[], (List.append_nil _).symm, (List.append_nil _).symm⟩, hs⟩

/-! ## Runs that are alike -/

/-- **Two runs whose requests are related**, one by one. -/
def RunsAlike
    (related : Int → (Occasion × Request) × Outcome → (Occasion × Request) × Outcome → Prop)
    (config : Config) (s s' : State) (requests requests' : List (Occasion × Request)) : Prop :=
  List.Forall₂ (related config.maxCodeLength) (requests.zip (serve config s requests))
    (requests'.zip (serve config s' requests'))

/-- **The log does not tell what requests hold**: runs that are alike, from states that are alike,
append the same text to the log, whatever stood in it before. -/
theorem log_eq_of_alike (config : Config) {s s' : State} (hs : StatesAlike s s')
    {requests requests' : List (Occasion × Request)}
    (h : RunsAlike Alike config s s' requests requests') :
    ∃ appended, config.logger.text (s.after config requests).directory =
        config.logger.text s.directory ++ appended ∧
      config.logger.text (s'.after config requests').directory =
        config.logger.text s'.directory ++ appended := by
  induction requests generalizing s s' requests' with
  | nil =>
    cases requests' with
    | nil => exact ⟨[], by simp [State.after_nil], by simp [State.after_nil]⟩
    | cons x requests' => cases h
  | cons x requests ih =>
    cases requests' with
    | nil => cases h
    | cons x' requests' =>
      obtain ⟨occasion, r⟩ := x
      obtain ⟨occasion', r'⟩ := x'
      obtain ⟨hfirst, hrest⟩ := List.forall₂_cons.1 h
      -- the first requests append one line and leave states that are alike for the others
      obtain ⟨⟨line, htext, htext'⟩, hnext⟩ := exists_line_of_alike hs hfirst
      obtain ⟨appended, hafter, hafter'⟩ := ih hnext hrest
      refine ⟨line ++ appended, ?_, ?_⟩
      · rw [State.after_cons, hafter, htext, List.append_assoc]
      · rw [State.after_cons, hafter', htext', List.append_assoc]

theorem Accepted.unique {route : Route} (h : Accepted r route call) (h' : Accepted r route call') :
    call' = call := by
  obtain ⟨t, body, fields, ht, hd, hfields, hc⟩ := h
  obtain ⟨t', body', fields', ht', hd', hfields', hc'⟩ := h'
  obtain rfl := Option.some.inj (ht.symm.trans ht')
  obtain rfl := Except.ok.inj (hd.symm.trans hd')
  obtain rfl := Value.obj.inj (hfields.symm.trans hfields')
  exact Except.ok.inj (hc'.symm.trans hc)

/-- The response to a review that is recorded. -/
theorem Recordable.response_review {q : ReviewRequest}
    (hr : Recordable config.maxCodeLength r .review (.review q))
    (hrefuses : config.logger.refuses = false) :
    (respond config occasion s r).response =
      .sent 200 (Lint.review q.language q.code.toList).toValue := by
  obtain ⟨body, hd⟩ := hr.accepted.exists_data?
  rw [hr.response hd, Config.recorded, hrefuses]
  rfl

/-- Reviews that have success are alike if they have the same language and number of issues. -/
theorem alike_of_reviews {q q' : ReviewRequest}
    (hr : Recordable config.maxCodeLength r .review (.review q))
    (hr' : Recordable config.maxCodeLength r' .review (.review q'))
    (hrefuses : config.logger.refuses = false) (hlanguage : q'.language = q.language)
    (hissues : (review q'.language q'.code.toList).totalIssues =
      (review q.language q.code.toList).totalIssues) :
    Alike config.maxCodeLength ((occasion, r), respond config occasion s r)
      ((occasion, r'), respond config occasion s' r') where
  occasion := rfl
  method := hr'.method.trans hr.method.symm
  route := hr'.path.trans hr.path.symm
  status := by
    rw [hr.response_review hrefuses, hr'.response_review hrefuses, status_sent, status_sent]
  review p p' hp hp' := by
    obtain rfl := Call.review.inj (hr.accepted.unique hp.accepted)
    obtain rfl := Call.review.inj (hr'.accepted.unique hp'.accepted)
    exact ⟨hlanguage, hissues⟩
  failed _ := ⟨fun _ => ⟨_, _, hr'⟩, fun _ => ⟨_, _, hr⟩⟩

/-- A request for a review of a register. -/
def registerRequest : ReviewRequest := ⟨"always @(posedge clk) q = d;", .verilog⟩

/-- The body that holds this request. -/
def registerBody : String :=
  "\x7b\"code\":\"always @(posedge clk) q = d;\",\"language\":\"verilog\"\x7d"

/-- The same request with names that tell what the register holds. -/
def secretRequest : ReviewRequest := ⟨"always @(posedge clk) key = secret;", .verilog⟩

/-- The body that holds that request. -/
def secretBody : String :=
  "\x7b\"code\":\"always @(posedge clk) key = secret;\",\"language\":\"verilog\"\x7d"

/-- A body that is read as a request for a review is recorded, if the code is within the limit. -/
theorem recordable_review {body : String} {q : ReviewRequest}
    (hd : (Request.post "/analyze" body).data? = .ok (Value.raw q.toValue))
    (hwithin : (Call.review q).exceeds limit = false) :
    Recordable limit (.post "/analyze" body) .review (.review q) := by
  have hpath : Route.ofPath? (Target.ofPath "/analyze".toList).path = some .review := by
    decide +kernel
  have hc : Tool.review.readCall q.toValue = .ok (.review q) := by
    rw [Tool.readCall, ReviewRequest.read_toValue, Call.of]
  exact ⟨hpath, rfl, ⟨.review, _, _, rfl, hd, Value.plain_raw _, hc⟩, hwithin⟩

theorem recordable_register :
    Recordable Config.recording.maxCodeLength (.post "/analyze" registerBody) .review
      (.review registerRequest) := by
  refine recordable_review ?_ (by decide)
  rw [data?_post (by decide +kernel) (by decide)]
  with_unfolding_all rfl

theorem recordable_secret :
    Recordable Config.recording.maxCodeLength (.post "/analyze" secretBody) .review
      (.review secretRequest) := by
  refine recordable_review ?_ (by decide)
  rw [data?_post (by decide +kernel) (by decide)]
  with_unfolding_all rfl

theorem totalIssues_secret :
    (review secretRequest.language secretRequest.code.toList).totalIssues =
      (review registerRequest.language registerRequest.code.toList).totalIssues := by
  decide +kernel

/-- A run with one request that posts a data text to a path. -/
def singleRun (path body : String) : List (Occasion × Request) :=
  [(⟨"first", 0⟩, .post path body)]

theorem runsAlike_secret (s s' : State) :
    RunsAlike Alike .recording s s' (singleRun "/analyze" registerBody)
      (singleRun "/analyze" secretBody) := by
  refine List.forall₂_cons.2 ⟨?_, .nil⟩
  apply alike_of_reviews recordable_register recordable_secret
  · exact writes_folderLogger.refuses_eq_false
  · rfl
  · exact totalIssues_secret

/-- A request that is recorded leaves a line in an empty log. -/
theorem text_after_singleRun_ne_nil {path body : String}
    (hr : Recordable Config.recording.maxCodeLength (.post path body) t call) :
    folderLogger.text (State.after .recording ⟨folderDirectory, []⟩
      (singleRun path body)).directory ≠ [] := by
  rw [singleRun, State.after_cons, State.after_nil, hr.state]
  have htext := Logger.text_after writes_folderLogger.opens
    (@Recordable.line_entry ⟨"first", 0⟩ ⟨folderDirectory, []⟩ _ t call _ hr)
  exact htext ▸ by simp

theorem log_eq_of_alike_secret :
    StatesAlike ⟨folderDirectory, []⟩ ⟨folderDirectory, []⟩ ∧
      RunsAlike Alike .recording ⟨folderDirectory, []⟩ ⟨folderDirectory, []⟩
        (singleRun "/analyze" registerBody) (singleRun "/analyze" secretBody) ∧
      folderLogger.text (State.after .recording ⟨folderDirectory, []⟩
        (singleRun "/analyze" registerBody)).directory ≠ [] ∧
      folderLogger.text (State.after .recording ⟨folderDirectory, []⟩
          (singleRun "/analyze" registerBody)).directory =
        folderLogger.text (State.after .recording ⟨folderDirectory, []⟩
          (singleRun "/analyze" secretBody)).directory := by
  have hs : StatesAlike ⟨folderDirectory, []⟩ ⟨folderDirectory, []⟩ := ⟨rfl, rfl, rfl⟩
  have halike := runsAlike_secret ⟨folderDirectory, []⟩ ⟨folderDirectory, []⟩
  obtain ⟨appended, htext, htext'⟩ := log_eq_of_alike .recording hs halike
  exact ⟨hs, halike, text_after_singleRun_ne_nil recordable_register, htext.trans htext'.symm⟩

/-! ## Requests that the server fails on -/

/-- Arguments on timing with a lone half of a surrogate pair. -/
def halfBody : String := "\x7b\"issue\":\"\\ud800\"\x7d"

/-- Arguments on timing whose issue is not a number. -/
def nanBody : String := "\x7b\"issue\":NaN\x7d"

theorem data?_halfBody :
    (Request.post "/timing" halfBody).data? =
      .ok (.obj [(.ofString "issue", .str [.half 0xD800])]) := by
  rw [data?_post (by decide +kernel) (by decide)]
  with_unfolding_all rfl

theorem recordable_half :
    Recordable Config.recording.maxCodeLength (.post "/timing" halfBody) .timing
      (.timing ⟨RawText.plain [.half 0xD800], none, .unknown⟩) :=
  ⟨by decide +kernel, rfl, ⟨.timing, _, _, rfl, data?_halfBody, rfl, rfl⟩, rfl⟩

theorem ofPath?_timing (body : String) :
    Route.ofPath? (Request.post "/timing" body).target.path = some .timing := by
  change Route.ofPath? (Target.ofPath "/timing".toList).path = some .timing
  decide +kernel

theorem response_half (occasion : Occasion) (s : State) :
    (respond .recording occasion s (.post "/timing" halfBody)).response = .internalError := by
  rw [respond_of_route (ofPath?_timing halfBody) rfl]
  exact response_of_fails rfl
    (.unrepeatable recordable_half.accepted data?_halfBody (List.mem_singleton_self _) rfl)

theorem data?_nanBody :
    (Request.post "/timing" nanBody).data? = .ok (Value.raw (.obj [("issue", .float .nan)])) := by
  rw [data?_post (by decide +kernel) (by decide)]
  with_unfolding_all rfl

theorem rejected_nan :
    Rejected .recording (.post "/timing" nanBody) .timing
      [Route.timing.shown ⟨.notText, [.field "issue"], .float .nan⟩] [.float .nan] depthLimit := by
  have hc : Tool.timing.readCall (.obj [("issue", .float .nan)]) =
      .error [⟨.notText, [.field "issue"], .float .nan⟩] := rfl
  exact .arguments rfl data?_nanBody (Value.plain_raw _) hc

theorem response_nan (occasion : Occasion) (s : State) :
    (respond .recording occasion s (.post "/timing" nanBody)).response = .internalError := by
  rw [respond_of_route (ofPath?_timing nanBody) rfl]
  exact response_of_fails rfl (.rejected rejected_nan (List.mem_singleton_self _) rfl)

theorem not_recordable_nan (t : Tool) (call : Call) :
    ¬ Recordable Config.recording.maxCodeLength (.post "/timing" nanBody) t call := by
  intro hr
  have hroute : t.route = .timing :=
    Option.some.inj (hr.path.symm.trans (ofPath?_timing nanBody))
  exact rejected_nan.not_accepted call (hroute ▸ hr.accepted)

/-- **Runs that agree in what is seen from outside** may leave different logs: the server fails on
both requests, and only one of them is recorded. -/
theorem not_log_eq_of_seenAlike :
    RunsAlike SeenAlike .recording ⟨folderDirectory, []⟩ ⟨folderDirectory, []⟩
        (singleRun "/timing" halfBody) (singleRun "/timing" nanBody) ∧
      folderLogger.text (State.after .recording ⟨folderDirectory, []⟩
        (singleRun "/timing" halfBody)).directory ≠ [] ∧
      folderLogger.text (State.after .recording ⟨folderDirectory, []⟩
        (singleRun "/timing" nanBody)).directory = [] := by
  refine ⟨List.forall₂_cons.2 ⟨?_, .nil⟩, text_after_singleRun_ne_nil recordable_half, ?_⟩
  · refine ⟨rfl, rfl, rfl, ?_, fun q q' hr _ => ?_⟩
    · dsimp only
      rw [response_half, response_nan]
    · exact absurd (hr.path.symm.trans (ofPath?_timing halfBody)) nofun
  · rw [singleRun, State.after_cons, State.after_nil, state_of_not_recordable not_recordable_nan]
    rfl

end HdlReview.Service
