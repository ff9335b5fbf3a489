import Teamspace.Common.FastapiErrors
import Teamspace.Common.ShownSecrets

/-!
# The log of token errors

`SafeAuthLogger.log_token_error` of `common/safe_auth_logger.py`. It redacts the first 500
characters of the body of an error response. Two bodies that differ in values of token fields alone
are logged alike just when what is shown of each value is the same (`log_token_error_hides`): a
value that the cut leaves without a quote is shown as far as it goes, and one with an escaped quote
from there on.
-/

namespace Teamspace.Common

open Teamspace.Py

/-- What the caller of `log_token_error` has: a response with its text, the fields of a parsed one,
or something else of this type. -/
inductive ResponseOrData
  | response (statusCode : Nat) (text : Option String)
  | data (fields : Dict)
  | other (typeName : String)

/-- `thread_id or "-"`. -/
def threadOrDash (threadId : Option String) : String :=
  if threadId.getD "" = "" then "-" else threadId.getD ""

/-- The line that `log_token_error` writes; `title` is its `prefix`. `str` writes a value as text,
as the built-in of that name does. -/
def logTokenError (str : Json → String) (grantType : String) (responseOrData : ResponseOrData)
    (threadId : Option String) (title : String) : String :=
  match responseOrData with
  | .response status text =>
    title ++ " (grant=" ++ grantType ++ ", http=" ++ toString status ++ ", thread=" ++
      threadOrDash threadId ++ "): " ++
      String.ofList (redactTokenJson ((text.getD "").toList.take 500))
  | .data fields =>
    let keys := fields.map fun f => .str f.1
    let hasToken := tokenFieldNames.any fun k => (Dict.get fields k).isSome
    let error := pyOr ((Dict.get fields "error").getD .null)
      ((Dict.get fields "error_description").getD .null)
    title ++ " (grant=" ++ grantType ++ ", has_token=" ++ str (.bool hasToken) ++ ", keys=" ++
      str (.arr keys) ++ ", error=" ++ str error ++ ", thread=" ++ threadOrDash threadId ++ ")"
  | .other typeName =>
    title ++ " (grant=" ++ grantType ++ ", thread=" ++ threadOrDash threadId ++ ", data_type=" ++
      typeName ++ ")"

/-- An error response whose body is this object, as the serialiser writes it. -/
def errorResponse (S : Serialiser) (status : Nat) (fields : Dict) : ResponseOrData :=
  .response status (some (String.ofList (S.serialise (.obj fields))))

/-- Strings of the same length under the key of a token field. -/
def TokenStrings (S : Serialiser) (k : String) (v w : Json) : Prop :=
  k ∈ tokenFieldNames ∧ S.SameLength v w

/-- What stands of the values of token fields in the first 500 characters of the body. -/
def visibleSecrets (S : Serialiser) (fields : Dict) : List (List Char) :=
  visible 500 (pieces S 0 (.obj fields))

variable {S : Serialiser}

/-- Only strings under token fields differ. -/
theorem tokenStrings_onlyStrings : S.OnlyStrings IsTokenField (TokenStrings S) := by
  rintro k v w ⟨hk, h⟩
  have hword : ∀ n ∈ tokenFieldNames, n.toList.all isWordChar = true := by decide +kernel
  exact ⟨⟨k, hk, S.word k (hword k hk)⟩, h⟩

/-- What is serialised is laid out. -/
theorem serialise_laid (v : Json) : Laid (pieces S 0 v) := by
  have h := @pieces_laid S v 0 [] trivial (Ends.afterValue nofun)
  rwa [List.append_nil] at h

/-- Error responses are logged alike just when the redacted starts of their bodies are the same. -/
theorem logged_iff (str : Json → String) (S : Serialiser) (grantType : String) (status : Nat)
    (threadId : Option String) (title : String) (fields fields' : Dict) :
    logTokenError str grantType (errorResponse S status fields) threadId title =
        logTokenError str grantType (errorResponse S status fields') threadId title ↔
      redactTokenJson (cut 500 (pieces S 0 (.obj fields))) =
        redactTokenJson (cut 500 (pieces S 0 (.obj fields'))) := by
  unfold errorResponse logTokenError
  simp only [Option.getD_some, String.toList_ofList]
  rw [String.append_right_inj, String.ofList_inj]
  exact Iff.rfl

/-- **Redaction.** Error responses whose bodies differ in values of token fields alone, of the same
length as they are written, are logged alike just when what is shown of each value is the same. -/
theorem log_token_error_hides (str : Json → String) (S : Serialiser) (grantType : String)
    (status : Nat) (threadId : Option String) (title : String) {fields fields' : Dict}
    (h : AlikeFields (TokenStrings S) fields fields') :
    logTokenError str grantType (errorResponse S status fields) threadId title =
        logTokenError str grantType (errorResponse S status fields') threadId title ↔
      List.Forall₂ SameShown (visibleSecrets S fields) (visibleSecrets S fields') := by
  have hpieces := pieces_alike tokenStrings_onlyStrings (.obj fields) 0 ⟨fields', rfl, h⟩
  have hagree := agree_pieces hpieces (serialise_laid _) (serialise_laid _) 500
  exact (logged_iff ..).trans hagree.2

/-- `json.dumps`, where no number of a body has a point or an exponent. -/
def plainDumps : Serialiser :=
  jsonDumps noFloats fun _ => ⟨List.forall_mem_singleton.2 (by decide), nofun, nofun⟩

/-- The fields of an error with this token. -/
def errorFields (token : String) : Dict :=
  [("error", .str "invalid_grant"), ("access_token", .str token)]

/-- The bodies of the example are alike if their tokens are equally long. -/
theorem errorFields_alike {token token' : String}
    (h : (plainDumps.content token).length = (plainDumps.content token').length) :
    AlikeFields (TokenStrings plainDumps) (errorFields token) (errorFields token') :=
  ⟨_, _, rfl, .inr rfl, _, _, rfl, .inl ⟨by decide, token, token', rfl, rfl, h⟩, rfl⟩

/-- The token of such an error is not logged. -/
theorem log_token_error_hides_token :
    logTokenError (fun _ => "") "refresh_token" (errorResponse plainDumps 400 (errorFields "abc"))
        none "Token endpoint error" =
      logTokenError (fun _ => "") "refresh_token" (errorResponse plainDumps 400 (errorFields "xyz"))
        none "Token endpoint error" :=
  (log_token_error_hides _ _ _ 400 none _ (errorFields_alike (by decide +kernel))).2
    (.cons (.inr ⟨[], by decide +kernel, by decide +kernel⟩) .nil)

/-- What follows an escaped quote is logged. -/
theorem escaped_quote_logged : ¬ ∀ (str : Json → String) (S : Serialiser) (grantType : String)
    (status : Nat) (threadId : Option String) (title : String) (fields fields' : Dict),
    AlikeFields (TokenStrings S) fields fields' →
      logTokenError str grantType (errorResponse S status fields) threadId title =
        logTokenError str grantType (errorResponse S status fields') threadId title := by
  intro h
  have hsame := h (fun _ => "") plainDumps "refresh_token" 400 none "Token endpoint error"
    (errorFields "\"abc") (errorFields "\"xyz") (errorFields_alike (by decide +kernel))
  rw [logged_iff] at hsame
  exact absurd hsame (by decide +kernel)

end Teamspace.Common
