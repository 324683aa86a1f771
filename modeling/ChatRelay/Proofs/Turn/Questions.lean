import ChatRelay.Proofs.Message.Faults
import ChatRelay.Proofs.Turn.Requests

/-!
# Questions that say nothing

The last message of a conversation, if it is a user's, is read once more when it is sent: a text
that is a JSON object stands for the text that the object gives. That the message says something is
looked at before, and of the text as it was given. So a blank text is refused, and what is sent in
the end may be blank all the same.

`Request.question` is the text that is sent for the last message, or why nothing is sent; nothing
else of a conversation may fail (`Request.ofMessages_concat_last`). Main result:
`requestFor_question_iff` says of which texts a request is made that ends with a text that is not
blank, or none is made since the input is not valid.
-/

namespace ChatRelay

open Json (Value Object)

variable {σ : Type}

namespace Request

/-- The text that is sent for the last message of a conversation, or why nothing is sent. -/
def question (m : Message) : Result String :=
  if Text.isAllBlank m.text.toList then .error (.invalidInput "content should not be empty")
  else (Message.ofRaw (String.ofList (Text.trim m.text.toList)) .user).map Message.text

/-- A message of a user that is the last one and has no attachments is sent for its question. -/
theorem entries_eq_question (files : Option (FileStore σ)) (vision : Bool) {m : Message}
    (hrole : m.role = .user) (htype : m.contentType = .text) (hattachments : m.attachments = []) :
    entries files vision m true =
      Flow.ofResult ((question m).map fun text => [spoken .user m.name text]) := by
  have hasked : (true && m.role == .user) = true := by
    rw [hrole]
    rfl
  unfold entries question
  dsimp only
  rw [isModelVisible_eq, htype, hasked, isBlank, inputEntries_eq_ofResult files vision hattachments,
    hattachments, hrole]
  cases hblank : Text.isAllBlank m.text.toList with
  | true => rfl
  | false =>
    cases Message.ofRaw (String.ofList (Text.trim m.text.toList)) .user <;> rfl

/-- What is sent for a conversation with a question at its end. -/
theorem ofMessages_concat_question (files : Option (FileStore σ)) (vision : Bool)
    (past : List Message) {m : Message} (hrole : m.role = .user) (htype : m.contentType = .text)
    (hattachments : m.attachments = []) :
    ofMessages files vision (past ++ [m]) =
      Flow.ofResult ((question m).map fun text =>
        past.flatMap passed ++ [spoken .user m.name text]) := by
  rw [ofMessages_concat_last, entries_eq_question files vision hrole htype hattachments]
  cases question m <;> rfl

open Message

variable {m : Message} {o : Object}

/-- A text that wraps an object is read as the object. -/
theorem ofRaw_of_wraps (h : m.Wraps o) :
    ofRaw (String.ofList (Text.trim m.text.toList)) .user = ofObject o .user := by
  unfold ofRaw
  dsimp only
  rw [String.toList_ofList, Text.trim_trim, h.opens, h.parses]
  rfl

/-- A question is refused since the input is not valid, or says something. -/
def IsSound (q : Result String) : Prop :=
  (∃ detail, q = .error (.invalidInput detail)) ∨
    ∃ text, q = .ok text ∧ Text.isAllBlank text.toList = false

/-- A text that is no JSON object is refused if it is blank, and else trimmed. -/
theorem isSound_question_of_not_wraps (h : ∀ o, ¬m.Wraps o) : IsSound (question m) := by
  unfold question
  rw [ofRaw_of_not_wraps h]
  split
  · exact .inl ⟨_, rfl⟩
  · next hblank =>
    refine .inr ⟨_, rfl, ?_⟩
    rw [Bool.eq_false_iff, Ne, ← Text.trim_eq_nil_iff]
    show ¬Text.trim (String.ofList _).toList = []
    rw [String.toList_ofList, Text.trim_trim, Text.trim_eq_nil_iff]
    exact hblank

/-- A JSON object is refused for its role or its type, or it must have attachments that decode and a
text that is not blank. -/
theorem isSound_question_iff_of_wraps (h : m.Wraps o) :
    IsSound (question m) ↔ IsRefused o .user ∨
      (∃ attachments, attachmentsIn o = .ok attachments) ∧
        Text.isAllBlank (textIn o).toList = false := by
  -- The text of the object is not blank, whatever it holds, so that the check for blanks passes.
  have hblank : Text.isAllBlank m.text.toList = false := by
    rw [Bool.eq_false_iff, Ne, ← Text.trim_eq_nil_iff]
    intro hnil
    have hopens := h.opens
    rw [hnil] at hopens
    exact nomatch hopens
  unfold question
  rw [hblank, if_neg Bool.false_ne_true, ofRaw_of_wraps h]
  have hread := readAs_ofObject o .user
  generalize ofObject o .user = r at hread
  cases hread with
  | refused detail hrefused =>
    constructor
    · intro _
      exact .inl hrefused
    · intro _
      exact .inl ⟨detail, rfl⟩
  | undecoded fault hknown hfault =>
    constructor
    · rintro (⟨detail, hdetail⟩ | ⟨text, htext, -⟩)
      · exact nomatch hdetail
      · exact nomatch htext
    · rintro (hrefused | ⟨⟨attachments, hattachments⟩, -⟩)
      · exact absurd hrefused hknown
      · exact nomatch hfault.symm.trans hattachments
  | read input hknown htext hattachments =>
    constructor
    · rintro (⟨detail, hdetail⟩ | ⟨text, hok, hsays⟩)
      · exact nomatch hdetail
      · cases hok
        rw [htext] at hsays
        exact .inr ⟨⟨_, hattachments⟩, hsays⟩
    · rintro (hrefused | ⟨-, hsays⟩)
      · exact absurd hrefused hknown
      · exact .inr ⟨_, rfl, htext ▸ hsays⟩

/-- What is sent for a text has it as its content. -/
theorem member?_content_spoken (role : Role) (name : Option String) (text : String) :
    (spoken role name text).member? "content" = some (.string text) := by
  cases name with
  | none => exact Table.get?_set_self _ "content" _
  | some n =>
    have hname : "content" ≠ "name" := by decide
    exact (Table.get?_set_of_ne _ _ hname).trans (Table.get?_set_self _ "content" _)

end Request

namespace Engine

open Message Request

/-- The request of a conversation with a question at its end, or why there is none. -/
theorem value_requestFor_concat (e : Engine σ) (a : Assistant σ) (past : List Message) {m : Message}
    (hrole : m.role = .user) (htype : m.contentType = .text) (hattachments : m.attachments = [])
    (w : σ) (hungUp : Bool) :
    ((e.requestFor a (past ++ [m])).run w hungUp).value =
      (question m).map fun text => past.flatMap passed ++ [spoken .user m.name text] := by
  rw [requestFor, ofMessages_concat_question _ _ _ hrole htype hattachments]
  rfl

/-- A request, or a failure to make one, is that of a question that is refused or says something
exactly if the question is. -/
theorem isSound_iff_of_value_eq {r : Result (List Value)} {q : Result String} {sent : List Value}
    {name : Option String} (h : r = q.map fun text => sent ++ [spoken .user name text]) :
    ((∃ detail, r = .error (.invalidInput detail)) ∨
        ∃ before text, r = .ok (before ++ [spoken .user name text]) ∧
          Text.isAllBlank text.toList = false) ↔ IsSound q := by
  subst h
  cases q with
  | error x =>
    constructor
    · rintro (⟨detail, hdetail⟩ | ⟨before, text, hok, -⟩)
      · cases hdetail
        exact .inl ⟨detail, rfl⟩
      · exact nomatch hok
    · rintro (⟨detail, hdetail⟩ | ⟨text, hok, -⟩)
      · cases hdetail
        exact .inl ⟨detail, rfl⟩
      · exact nomatch hok
  | ok own =>
    constructor
    · rintro (⟨detail, hdetail⟩ | ⟨before, text, hok, hsays⟩)
      · exact nomatch hdetail
      · have hspoken : spoken .user name own = spoken .user name text :=
          List.singleton_inj.1 (List.append_inj_right' (Except.ok.inj hok) rfl)
        have hcontent := member?_content_spoken .user name own
        rw [hspoken, member?_content_spoken] at hcontent
        cases hcontent
        exact .inr ⟨_, rfl, hsays⟩
    · rintro (⟨detail, hdetail⟩ | ⟨text, hok, hsays⟩)
      · exact nomatch hdetail
      · cases hok
        exact .inr ⟨sent, _, rfl, hsays⟩

/-- Of which conversations with a message of a user at their end, which is text and has no
attachments, a request is made as it should be: none is made since the input is not valid, or the
request ends with that message and a text that is not blank. That is so unless the text is a JSON
object of which the role and the type are well, and of which the attachments do not decode or the
text is blank. -/
theorem requestFor_question_iff (e : Engine σ) (a : Assistant σ) (past : List Message) {m : Message}
    (hrole : m.role = .user) (htype : m.contentType = .text) (hattachments : m.attachments = [])
    (w : σ) (hungUp : Bool) :
    ((∃ detail, ((e.requestFor a (past ++ [m])).run w hungUp).value =
          .error (.invalidInput detail)) ∨
        ∃ before text, ((e.requestFor a (past ++ [m])).run w hungUp).value =
            .ok (before ++ [spoken .user m.name text]) ∧
          Text.isAllBlank text.toList = false) ↔
      ∀ o, m.Wraps o → IsRefused o .user ∨
        (∃ attachments, attachmentsIn o = .ok attachments) ∧
          Text.isAllBlank (textIn o).toList = false := by
  have hvalue := value_requestFor_concat e a past hrole htype hattachments w hungUp
  rw [isSound_iff_of_value_eq hvalue]
  by_cases hwraps : ∃ o, m.Wraps o
  · obtain ⟨o, ho⟩ := hwraps
    rw [isSound_question_iff_of_wraps ho]
    constructor
    · intro hsound o' ho'
      have hsame : o' = o := by
        have hparses := ho'.parses
        rw [ho.parses] at hparses
        cases hparses
        rfl
      rw [hsame]
      exact hsound
    · intro hall
      exact hall o ho
  · have hnone : ∀ o, ¬m.Wraps o := not_exists.1 hwraps
    constructor
    · intro _ o ho
      exact absurd ho (hnone o)
    · intro _
      exact isSound_question_of_not_wraps hnone

/-- A message of a user whose text is a JSON object with a content. -/
def wrapping (content : String) : Message :=
  .of .user ("\x7b\"content\":\"" ++ content ++ "\"\x7d")

/-- The content of such an object is sent, if it says something. -/
theorem requestFor_question_wrapped :
    (∃ detail, ((relaying.requestFor (bare "a" none) [wrapping "hi"]).run () false).value =
        .error (.invalidInput detail)) ∨
      ∃ before text, ((relaying.requestFor (bare "a" none) [wrapping "hi"]).run () false).value =
          .ok (before ++ [spoken .user none text]) ∧
        Text.isAllBlank text.toList = false := by
  have hquestion : (question (wrapping "hi")).toOption = some "hi" := by decide +kernel
  have hsound : IsSound (question (wrapping "hi")) := by
    cases hread : question (wrapping "hi") with
    | error x =>
      rw [hread] at hquestion
      cases hquestion
    | ok text =>
      rw [hread] at hquestion
      cases hquestion
      exact .inr ⟨"hi", rfl, rfl⟩
  apply (requestFor_question_iff relaying (bare "a" none) [] (m := wrapping "hi") rfl rfl rfl ()
    false).2
  intro o ho
  exact (isSound_question_iff_of_wraps ho).1 hsound

/-- An object with an empty content is sent with that content. -/
theorem requestFor_blank_wrapped :
    ¬((∃ detail, ((relaying.requestFor (bare "a" none) [wrapping ""]).run () false).value =
          .error (.invalidInput detail)) ∨
        ∃ before text, ((relaying.requestFor (bare "a" none) [wrapping ""]).run () false).value =
            .ok (before ++ [spoken .user none text]) ∧
          Text.isAllBlank text.toList = false) := by
  have hquestion : (question (wrapping "")).toOption = some "" := by decide +kernel
  have hvalue := value_requestFor_concat relaying (bare "a" none) [] (m := wrapping "") rfl rfl rfl
    () false
  rw [List.nil_append] at hvalue
  intro hsound
  rcases (isSound_iff_of_value_eq hvalue).1 hsound with ⟨detail, hrefused⟩ | ⟨text, htext, hsays⟩
  · rw [hrefused] at hquestion
    exact nomatch hquestion
  · rw [htext] at hquestion
    cases hquestion
    exact nomatch hsays

end Engine

end ChatRelay
