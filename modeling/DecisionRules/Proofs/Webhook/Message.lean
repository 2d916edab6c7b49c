import DecisionRules.Webhook.Message

/-! Messages of requests. Headers that are not ASCII are what keeps a message from being made, apart from its body;
the user agent is one of them. -/
namespace DecisionRules

namespace Message

def plainHeader (h : String × String) : Bool := isAscii h.1 && isAscii h.2

theorem checkHeaders (given : List (String × String)) :
    (forIn given PUnit.unit fun h _ => do
      checkHeader h.1 h.2
      return ForInStep.yield PUnit.unit : Except Breach PUnit) =
      if given.all plainHeader then .ok ⟨⟩ else .error .unencodable := by
  induction given with
  | nil => rfl
  | cons h rest ih =>
    rw [List.forIn_cons, List.all_cons]
    unfold checkHeader plainHeader
    cases isAscii h.1 && isAscii h.2 with
    | false => rfl
    | true => exact ih

def withAgent (userAgent : String) (given : Assoc String) : Assoc String :=
  Assoc.setDefault (given.foldl (fun done (name, value) => addHeader done name value) []) "user-agent"
    userAgent

theorem headersOfFails (userAgent : String) (given : Assoc String) :
    headersOf userAgent given = if plainHeader ("user-agent", userAgent) && given.all plainHeader
      then .ok (withAgent userAgent given) else .error .unencodable := by
  have checked := checkHeaders (("user-agent", userAgent) :: given)
  rw [List.all_cons] at checked
  change (do
    forIn (("user-agent", userAgent) :: given) PUnit.unit fun (h : String × String) _ => do
      checkHeader h.1 h.2
      return ForInStep.yield PUnit.unit
    pure (withAgent userAgent given) : Except Breach (Assoc String)) = _
  rw [checked]
  split <;> rfl

/-- Whether a message can be made, and why not, is not for the URL to decide, nor for the headers beyond
whether they are plain. -/
theorem buildFails {userAgent method url url' : String} {given given' : Assoc String}
    (plain : given.all plainHeader = given'.all plainHeader) (text : Option String) (content : Value) :
    (build userAgent method url given text content).map (fun _ => ()) =
      (build userAgent method url' given' text content).map (fun _ => ()) := by
  unfold build
  rw [headersOfFails, headersOfFails, plain]
  split
  · cases text with
    | some s => rfl
    | none =>
      simp only [bind, Except.bind]
      cases structured content with
      | error b => rfl
      | ok body => cases body <;> rfl
  · rfl

theorem builtAgent {userAgent method url : String} {given : Assoc String} {text : Option String} {content : Value}
    {message : Message} (built : build userAgent method url given text content = .ok message) :
    isAscii userAgent = true := by
  cases plain : isAscii userAgent with
  | true => rfl
  | false =>
    have fails : headersOf userAgent given = .error .unencodable := by
      rw [headersOfFails, plainHeader, plain, Bool.and_false, Bool.false_and]
      exact if_neg Bool.false_ne_true
    simp [build, fails, bind, Except.bind] at built

end Message

end DecisionRules
