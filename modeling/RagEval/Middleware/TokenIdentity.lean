import RagEval.Lib.Base64
import RagEval.Lib.JsonLoaded
import RagEval.Middleware.Stack

/-!
# The identity a token claims

`_extract_user_from_token` of `app/core/middleware/auth_middleware.py` with the decoders it
calls. It reads the payload of a token and asks neither for its header nor for its signature,
and what it reads is the user that the audit log names.

## Main definitions

- `decodeSegment` — Base64, UTF-8 and JSON
- `compactToken` — a token with a given payload, whatever its header and its signature

## Main result

- `claimed_identity_audited` — the audit log names whom the token claims to be
-/

namespace RagEval.Middleware
open RagEval.Lib RagEval.Lib.Json RagEval.Lib.Outcome

/-- `json.loads(base64.urlsafe_b64decode(s).decode("utf-8"))`. -/
def decodeSegment (s : String) : Option Value := do
  let payloadBytes ← Base64.urlsafeDecode s.toList
  let text ← String.fromUTF8? ⟨payloadBytes.toArray⟩
  loads text

/-- The environment in which payloads are decoded as the middleware decodes them. -/
def Env.decoding (env : Env) : Env := { env with decodePayload := decodeSegment }

/-- The segment of a token that carries a text. -/
def segment (text : String) : String := String.ofList (Base64.encode text.toByteArray.data.toList)

/-- The three segments of a token; its payload carries a JSON text. -/
def compactToken (header text signature : String) : String :=
  ".".intercalate [header, segment text, signature]

/-! ## Reading the payload -/

theorem decodeSegment_segment (text : String) :
    decodeSegment (segment text ++ String.ofList (Base64.padding (segment text).length)) =
      loads text := by
  have hlength : (segment text).length = (Base64.encode text.toByteArray.data.toList).length := by
    rw [segment, String.length_ofList]
  have hutf8 : String.fromUTF8? text.toByteArray = some text := dif_pos text.isValidUTF8
  rw [hlength, decodeSegment, segment, ← String.ofList_append, String.toList_ofList,
    Base64.urlsafeDecode_encode]
  show (String.fromUTF8? ⟨text.toByteArray.data.toList.toArray⟩).bind _ = _
  rw [Array.toArray_toList, hutf8, Option.bind_some]

theorem not_mem_segment (text : String) : '.' ∉ (segment text).toList := by
  rw [segment, String.toList_ofList]
  exact fun h => Base64.ne_dot_of_mem_encode h rfl

/-- Neither the header nor the signature of a token has a say. -/
theorem extractUserFromToken_compactToken (env : Env) {header signature : String} (text : String)
    (hheader : '.' ∉ header.toList) (hsignature : '.' ∉ signature.toList) :
    extractUserFromToken env.decoding ("Bearer " ++ compactToken header text signature) =
      loads text := by
  have hstarts : Text.startswith ("Bearer " ++ compactToken header text signature) "Bearer " = true :=
    (Text.startswith_iff _ _).mpr ⟨_, rfl⟩
  have hdrop : Text.dropFirst ("Bearer " ++ compactToken header text signature) 7 =
      compactToken header text signature := by
    have hlength : "Bearer ".toList.length = 7 := by decide
    rw [Text.dropFirst, String.toList_append, List.drop_left' hlength, String.ofList_toList]
  have hsplit : Text.split (compactToken header text signature) '.' =
      [header, segment text, signature] := by
    apply Text.split_intercalate (by simp)
    simp [hheader, hsignature, not_mem_segment]
  rw [extractUserFromToken, if_pos hstarts, hdrop, hsplit]
  have hread := decodeSegment_segment text
  rw [Base64.padding] at hread
  dsimp only
  split_ifs at hread ⊢ with hpad
  · exact hread
  · rwa [String.ofList_nil, String.append_empty] at hread

/-! ## The state and the audit log -/

/-- `user_info.get(key, default)`. -/
def claim (claims : List (String × Value)) (key : String) (dflt : Value) : Value :=
  (Assoc.get key claims).getD dflt

/-- The state holds what the token says. -/
theorem authState_compactToken (env : Env) {header signature : String}
    (hheader : '.' ∉ header.toList) (hsignature : '.' ∉ signature.toList)
    {claims : List (String × Value)} (hclaims : Canonical (.dict claims)) (hne : claims ≠ [])
    (state : RequestState) :
    let authHeader :=
      "Bearer " ++ compactToken header (dumpsWith .compact (.dict claims)) signature
    authState env.decoding authHeader state =
      { state with
        authorization := some authHeader
        userId := claim claims "sub" .none
        userEmail := claim claims "email" .none
        userPermissions := claim claims "permissions" (.list []) } := by
  intro authHeader
  have hread := extractUserFromToken_compactToken env (dumpsWith .compact (.dict claims)) hheader
    hsignature
  rw [loads_dumpsWith_of_canonical .compact hclaims] at hread
  obtain ⟨kv, kvs, rfl⟩ := List.exists_cons_of_ne_nil hne
  rw [authState, hread]
  rfl

/-- Whoever writes claims into a token is, to the route and in the audit log, whom they name: no
signature is checked. -/
theorem claimed_identity_audited (env : Env) (cors : CORSMiddleware) (isProduction : Bool)
    (route : Request → Except Raised Response) (request : Request) (log : List AuditRecord)
    {header signature : String} (hheader : '.' ∉ header.toList) (hsignature : '.' ∉ signature.toList)
    {claims : List (String × Value)} (hclaims : Canonical (.dict claims)) (hne : claims ≠ [])
    (hguarded : request.Guarded)
    (hauth : request.header "Authorization" =
      some ("Bearer " ++ compactToken header (dumpsWith .compact (.dict claims)) signature)) :
    (received env.decoding request).state.userId = claim claims "sub" .none ∧
    (received env.decoding request).state.userEmail = claim claims "email" .none ∧
    (received env.decoding request).state.userPermissions = claim claims "permissions" (.list []) ∧
    (request.method ∈ auditMethods → ∀ response log',
      addMiddlewares env.decoding cors isProduction (routeApp route) request log =
        .ok response log' →
      ∃ record, log' = log ++ [record] ∧ record.userId = claim claims "sub" .none) := by
  obtain ⟨ids, hids⟩ : ∃ ids, identified env.decoding request =
    authenticated env.decoding (request.withState ids) := ⟨_, rfl⟩
  have hheaders : (request.withState ids).header "Authorization" =
      request.header "Authorization" := rfl
  have hnonempty : "Bearer " ++ compactToken header (dumpsWith .compact (.dict claims)) signature ≠ "" :=
    fun h => absurd (String.append_eq_empty_iff.mp h).1 (by decide)
  have hpresent : orElse (request.header "Authorization") "" =
      "Bearer " ++ compactToken header (dumpsWith .compact (.dict claims)) signature := by
    rw [hauth, orElse, if_neg hnonempty]
  have hstate := authState_compactToken env hheader hsignature hclaims hne ids
  rw [authenticated, hheaders, hpresent, if_neg hnonempty] at hids
  have huser : (received env.decoding request).state.userId = claim claims "sub" .none := by
    show (identified env.decoding request).state.userId = _
    rw [hids]
    exact congrArg RequestState.userId hstate
  refine ⟨huser, ?_, ?_, ?_⟩
  · show (identified env.decoding request).state.userEmail = _
    rw [hids]
    exact congrArg RequestState.userEmail hstate
  · show (identified env.decoding request).state.userPermissions = _
    rw [hids]
    exact congrArg RequestState.userPermissions hstate
  · intro hmethod response log' hok
    have hreturns := returns_of_ok hok fun _ l => l = log'
    have hlog := (returns_addMiddlewares hguarded).mp (hreturns.mpr rfl)
    obtain ⟨path, hurl, -⟩ := hguarded
    rw [returns_innerStack_routeApp ((received_urlPath _ _).trans hurl)] at hlog
    have hrecords : ∀ r, auditRecords env.decoding (received env.decoding request) r =
        [createAuditRecord env.decoding (received env.decoding request) r.statusCode] := by
      intro r
      rw [auditRecords, received_method, if_pos hmethod]
    -- the route's response and that of the error middleware are audited alike
    obtain ⟨r, -, hlog⟩ | ⟨exc, -, r, -, hlog⟩ := hlog
    all_goals
      rw [hrecords] at hlog
      exact ⟨_, hlog.symm, huser⟩

/-- A token without header and signature. -/
def unsignedRequest : Request where
  method := "DELETE"
  url := "http://testserver/api/v1/admin/users/7"
  path := "/api/v1/admin/users/7"
  headers := [("authorization",
    "Bearer " ++ compactToken "" (dumpsWith .compact (.dict [("sub", .str "admin")])) "")]

theorem claimed_identity_audited_unsigned :
    ∃ response record, addMiddlewares demoEnv.decoding passThrough true
        (routeApp fun _ => .ok ⟨204, [], .bytes []⟩) unsignedRequest [] = .ok response [record] ∧
      record.userId = .str "admin" := by
  have hguarded : unsignedRequest.Guarded := ⟨_, rfl, by decide⟩
  have hclaims : Canonical (.dict [("sub", .str "admin")]) :=
    canonical_dict (by simp) (List.forall_mem_singleton.mpr ⟨trivial, rfl⟩)
  have hanswers : Returns (addMiddlewares demoEnv.decoding passThrough true
      (routeApp fun _ => .ok ⟨204, [], .bytes []⟩) unsignedRequest) [] fun _ _ => True :=
    (returns_addMiddlewares hguarded).mpr
      ((returns_innerStack_routeApp (received_urlPath _ _)).mpr (.inl ⟨_, rfl, trivial⟩))
  obtain ⟨response, log', hok, -⟩ := hanswers
  obtain ⟨record, rfl, hrecord⟩ := (claimed_identity_audited demoEnv passThrough true
    (fun _ => .ok ⟨204, [], .bytes []⟩) unsignedRequest [] (by simp) (by simp) hclaims (by simp)
    hguarded rfl).2.2.2 (by decide) response log' hok
  exact ⟨response, record, hok, hrecord⟩

end RagEval.Middleware
