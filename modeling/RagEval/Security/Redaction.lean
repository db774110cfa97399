import RagEval.Lib.Regex
import RagEval.Middleware.Layers

/-!
# Redaction of log events

`app/core/security/__init__.py`: the processor that every event passes before it is rendered.
It replaces the values under sensitive keys and masks the e-mail addresses in strings, at the top
level of the event; the audit record of a request is logged inside another value.

## Main definitions

- `maskEmail`, `redactSensitiveData` — as in the source
- `stretches` — the parts of a text that masking leaves in one piece
- `Holds` — a value somewhere inside another, under a key

## Main results

- `redactSensitiveData_clean_iff` — when no address is left, and redacting again changes nothing
- `redactSensitiveData_masked_iff` — when every value under a sensitive key is replaced
-/

namespace RagEval.Security
open RagEval.Lib RagEval.Lib.Regex

/-- `EMAIL_RE`. -/
def emailRe : Pattern Char where
  pieces := [.atLeast 1 (alnumOr ['.', '_', '%', '+', '-']), .one (· == '@'),
    .atLeast 1 (alnumOr ['.', '-']), .one (· == '.'), .atLeast 2 (letterOr [])]
  consumes := ⟨_, List.mem_cons_self, Nat.one_pos⟩

def sensitiveKeys : List String :=
  ["password", "token", "access_token", "refresh_token", "authorization", "api_key", "secret"]

/-- The part before the first `@`. -/
def localPart (email : List Char) : List Char := email.takeWhile (· ≠ '@')

/-- The first `@` and what follows it. -/
def domainPart (email : List Char) : List Char := email.dropWhile (· ≠ '@')

def maskEmail (email : String) (visible : Int) : String :=
  if '@' ∉ email.toList then email
  else
    let name := localPart email.toList
    let domain := (domainPart email.toList).tail
    if visible ≤ 0 then String.ofList (['*', '*', '*', '@'] ++ domain)
    else if name.length ≤ visible then
      String.ofList (List.replicate name.length '*' ++ '@' :: domain)
    else
      String.ofList (name.take visible.toNat ++
        List.replicate (name.length - visible.toNat) '*' ++ '@' :: domain)

section Processor
variable (lower : String → String) (t : CharTable)

/-- One round of the loop; `lower` is `str.lower`. -/
def redactItem (eventDict : Dict String Value) : String × Value → Dict String Value
  | (key, value) =>
    if lower key ∈ sensitiveKeys then eventDict.set key (.str "***")
    else
      match value with
      | .str s => eventDict.set key (.str (Regex.sub t.word emailRe (maskEmail · 2) s))
      | _ => eventDict

def redactSensitiveData (eventDict : Dict String Value) : Dict String Value :=
  eventDict.items.foldl (redactItem lower t) eventDict

end Processor

/-! ## What is logged of a request -/

/-- A text that may be missing. -/
def optionalText : Option String → Value
  | none => .none
  | some s => .str s

/-- The event that `_log_audit` logs. -/
def auditEvent (record : Middleware.AuditRecord) : Dict String Value :=
  Dict.ofList
    [("event", .str "audit_event action=%s path=%s user=%s tenant=%s"),
     ("positional_args", .list
       [.str record.method, .str record.path, record.userId, optionalText record.tenantId]),
     ("extra", .dict [("audit", .dict
       [("timestamp", .str record.timestamp), ("method", .str record.method),
        ("path", .str record.path),
        ("query_params", .dict
          (Dict.ofList (record.queryParams.map fun kv => (kv.1, Value.str kv.2))).items),
        ("client_ip", optionalText record.clientIp),
        ("user_agent", optionalText record.userAgent),
        ("request_id", optionalText record.requestId),
        ("correlation_id", optionalText record.correlationId),
        ("tenant_id", optionalText record.tenantId), ("user_id", record.userId),
        ("status_code", .int record.statusCode)])])]

/-! ## Redaction entry by entry -/

section Entries
variable (lower : String → String) (t : CharTable)

/-- What the entry `key: value` of an event becomes. -/
def redactValue (key : String) (value : Value) : Value :=
  if lower key ∈ sensitiveKeys then .str "***"
  else
    match value with
    | .str s => .str (Regex.sub t.word emailRe (maskEmail · 2) s)
    | v => v

variable {lower t}

theorem redactValue_of_sensitive {key : String} (h : lower key ∈ sensitiveKeys) (value : Value) :
    redactValue lower t key value = .str "***" := if_pos h

theorem redactValue_str {key : String} (h : lower key ∉ sensitiveKeys) (s : String) :
    redactValue lower t key (.str s) = .str (Regex.sub t.word emailRe (maskEmail · 2) s) :=
  if_neg h

/-- Under the other keys only strings are looked into. -/
theorem redactValue_of_not_str {key : String} (h : lower key ∉ sensitiveKeys) {value : Value}
    (hvalue : ∀ s, value ≠ .str s) : redactValue lower t key value = value := by
  refine (if_neg h).trans ?_
  cases value with
  | str s => exact absurd rfl (hvalue s)
  | none | bool | int | float | list | dict => rfl

variable (lower t)

theorem items_redactSensitiveData (d : Dict String Value) :
    (redactSensitiveData lower t d).items =
      d.items.map fun kv => (kv.1, redactValue lower t kv.1 kv.2) := by
  refine Dict.items_foldl_items (fun d k v hget => ?_) d
  dsimp only [redactItem, redactValue]
  by_cases hsensitive : lower k ∈ sensitiveKeys
  · rw [if_pos hsensitive, if_pos hsensitive]
    rfl
  · rw [if_neg hsensitive, if_neg hsensitive]
    cases v with
    | str s => rfl
    | none | bool | int | float | list | dict => exact (Assoc.set_of_get hget).symm

theorem get?_redactSensitiveData (d : Dict String Value) (k : String) :
    (redactSensitiveData lower t d).get? k = (d.get? k).map (redactValue lower t k) := by
  rw [Dict.get?, items_redactSensitiveData, Assoc.get_map]
  rfl

end Entries

/-! ## Addresses -/

/-- What is seen of the local part of a masked address. -/
def shownPart (email : List Char) : List Char :=
  if (localPart email).length ≤ 2 then [] else (localPart email).take 2

theorem domainPart_eq {email : List Char} (h : '@' ∈ email) :
    domainPart email = '@' :: (domainPart email).tail := by
  induction email with
  | nil => exact absurd h List.not_mem_nil
  | cons c email ih =>
    rw [domainPart, List.dropWhile_cons]
    by_cases hc : c = '@'
    · subst hc
      rfl
    · rw [if_pos (decide_eq_true hc)]
      exact ih ((List.mem_cons.mp h).resolve_left (Ne.symm hc))

/-- An address that matches has its `@` after a local part. -/
theorem email_of_derives {m : List Char} (h : Derives emailRe.pieces m) :
    '@' ∈ m ∧ 0 < (localPart m).length := by
  constructor
  · obtain ⟨c, hc, hat⟩ := h.exists_mem (List.mem_cons_of_mem _ List.mem_cons_self) Nat.one_pos
    exact (beq_iff_eq.mp hat) ▸ hc
  · obtain ⟨x, y, rfl, ⟨hcls, hleast, -⟩, -⟩ := h
    obtain ⟨c, x, rfl⟩ := List.exists_cons_of_length_pos hleast
    have hc : c ≠ '@' := by
      rintro rfl
      exact absurd (hcls '@' List.mem_cons_self) (by decide)
    rw [List.cons_append, localPart, List.takeWhile_cons, if_pos (decide_eq_true hc)]
    exact Nat.succ_pos _

/-- A masked address has at least one asterisk between what is shown and the domain. -/
theorem toList_maskEmail {m : List Char} (h : Derives emailRe.pieces m) :
    ∃ n, 0 < n ∧ (maskEmail (String.ofList m) 2).toList =
      shownPart m ++ List.replicate n '*' ++ domainPart m := by
  obtain ⟨hat, hpos⟩ := email_of_derives h
  rw [domainPart_eq hat, maskEmail, String.toList_ofList, if_neg (not_not.mpr hat), shownPart]
  by_cases hlen : (localPart m).length ≤ 2
  · refine ⟨(localPart m).length, hpos, ?_⟩
    have hlen' : ((localPart m).length : Int) ≤ 2 := by omega
    rw [if_pos hlen]
    simp only [if_neg (show ¬(2 : Int) ≤ 0 by decide), if_pos hlen', String.toList_ofList]
    rfl
  · refine ⟨(localPart m).length - 2, by omega, ?_⟩
    have hlen' : ¬((localPart m).length : Int) ≤ 2 := by omega
    rw [if_neg hlen]
    simp only [if_neg (show ¬(2 : Int) ≤ 0 by decide), if_neg hlen', String.toList_ofList]
    rfl

section Masking
variable {lower : String → String} {t : CharTable}

theorem stop_asterisk : Stop t.word emailRe '*' := by
  refine ⟨t.word_eq_false (by decide) (by decide), ?_⟩
  simp only [emailRe, List.forall_mem_cons, Piece.atLeast, Piece.one]
  decide

theorem severs_maskEmail {m : List Char} (h : Derives emailRe.pieces m) :
    Severs t.word emailRe (maskEmail (String.ofList m) 2).toList (shownPart m) (domainPart m) := by
  obtain ⟨n, hn, hmask⟩ := toList_maskEmail h
  rw [hmask]
  refine severs_of_stops ?_ fun x hx => ?_
  · exact List.ne_nil_of_length_pos (by rw [List.length_replicate]; exact hn)
  · rw [(List.mem_replicate.mp hx).2]
    exact stop_asterisk

variable (t)

/-- The parts of a text that masking leaves in one piece: what lies between the hidden characters
of one address and those of the next. -/
def stretches (s : String) : List (List Char) :=
  (cut t.word emailRe s.toList).stretches shownPart domainPart []

/-- No address is in a part of the text that masking leaves in one piece. -/
def Unchained (s : String) : Prop := ∀ w ∈ stretches t s, ¬Contains t.word emailRe w

/-- No string at the top level has an address in it. -/
def Clean (d : Dict String Value) : Prop :=
  ∀ k s, d.get? k = some (.str s) → ¬Contains t.word emailRe s.toList

variable {t}

theorem unchained_iff (s : String) :
    Unchained t s ↔
      ¬Contains t.word emailRe (Regex.sub t.word emailRe (maskEmail · 2) s).toList := by
  rw [Regex.sub, String.toList_ofList, contains_replace_iff fun _ => severs_maskEmail, Unchained,
    stretches]
  simp only [not_exists, not_and]

theorem sub_of_not_contains {s : String} (h : ¬Contains t.word emailRe s.toList) :
    Regex.sub t.word emailRe (maskEmail · 2) s = s := by
  rw [Regex.sub, replace_of_not_contains h, String.ofList_toList]

/-- The placeholder has no address in it. -/
theorem not_contains_placeholder : ¬Contains t.word emailRe "***".toList := by
  have hstars : "***".toList = List.replicate 3 '*' := rfl
  rw [hstars]
  apply not_contains_of_forall (List.mem_cons_of_mem _ List.mem_cons_self) Nat.one_pos
  intro c hc
  rw [List.eq_of_mem_replicate hc]
  decide

/-- An entry that redaction has made is redacted. -/
theorem redactValue_redactValue {k : String} {v : Value}
    (h : ∀ s, redactValue lower t k v = .str s → ¬Contains t.word emailRe s.toList) :
    redactValue lower t k (redactValue lower t k v) = redactValue lower t k v := by
  by_cases hsensitive : lower k ∈ sensitiveKeys
  · rw [redactValue_of_sensitive hsensitive, redactValue_of_sensitive hsensitive]
  · by_cases hstr : ∃ s, redactValue lower t k v = .str s
    · obtain ⟨s, hs⟩ := hstr
      rw [hs, redactValue_str hsensitive, sub_of_not_contains (h s hs)]
    · exact redactValue_of_not_str hsensitive fun s hs => hstr ⟨s, hs⟩

/-- Redacting an event with no address left changes nothing. -/
theorem redactSensitiveData_redactSensitiveData {d : Dict String Value}
    (h : Clean t (redactSensitiveData lower t d)) :
    redactSensitiveData lower t (redactSensitiveData lower t d) =
      redactSensitiveData lower t d := by
  have hitems : (redactSensitiveData lower t (redactSensitiveData lower t d)).items =
      (redactSensitiveData lower t d).items := by
    rw [items_redactSensitiveData, items_redactSensitiveData, List.map_map]
    refine List.map_congr_left fun ⟨k, v⟩ hkv => ?_
    have hget : (redactSensitiveData lower t d).get? k = some (redactValue lower t k v) := by
      rw [get?_redactSensitiveData, (d.get?_eq_some_iff k v).mpr hkv, Option.map_some]
    refine Prod.ext rfl (redactValue_redactValue fun s hs => ?_)
    exact h k s (hget.trans (congrArg some hs))
  exact Dict.ext_items hitems

theorem clean_redactSensitiveData_iff (d : Dict String Value) :
    Clean t (redactSensitiveData lower t d) ↔
      ∀ k s, d.get? k = some (.str s) → lower k ∉ sensitiveKeys → Unchained t s := by
  constructor
  · intro h k s hget hsensitive
    refine (unchained_iff s).mpr (h k _ ?_)
    rw [get?_redactSensitiveData, hget, Option.map_some, redactValue_str hsensitive]
  · intro h k s hget
    rw [get?_redactSensitiveData] at hget
    obtain ⟨v, hv, hvalue⟩ := Option.map_eq_some_iff.mp hget
    by_cases hsensitive : lower k ∈ sensitiveKeys
    · rw [redactValue_of_sensitive hsensitive, Value.str.injEq] at hvalue
      exact hvalue ▸ not_contains_placeholder
    · by_cases hstr : ∃ s', v = .str s'
      · obtain ⟨s', rfl⟩ := hstr
        rw [redactValue_str hsensitive, Value.str.injEq] at hvalue
        exact hvalue ▸ (unchained_iff s').mp (h k s' hv hsensitive)
      · rw [redactValue_of_not_str hsensitive fun s' hs' => hstr ⟨s', hs'⟩] at hvalue
        exact absurd ⟨s, hvalue⟩ hstr

/-- Exactly where no address reaches from one masked address into what is left of the next is
no address left in a string, and then a second redaction changes nothing. -/
theorem redactSensitiveData_clean_iff (lower : String → String) (t : CharTable)
    (d : Dict String Value) :
    (Clean t (redactSensitiveData lower t d) ∧
        redactSensitiveData lower t (redactSensitiveData lower t d) =
          redactSensitiveData lower t d) ↔
      ∀ k s, d.get? k = some (.str s) → lower k ∉ sensitiveKeys → Unchained t s := by
  rw [← clean_redactSensitiveData_iff]
  exact and_iff_left_of_imp redactSensitiveData_redactSensitiveData

/-- The domain of the first address is the local part of a second. -/
theorem not_clean_chained :
    ¬(Clean .ascii (redactSensitiveData Text.lower .ascii
          (Dict.ofList [("event", .str "a@b.co@d.co")])) ∧
        redactSensitiveData Text.lower .ascii (redactSensitiveData Text.lower .ascii
            (Dict.ofList [("event", .str "a@b.co@d.co")])) =
          redactSensitiveData Text.lower .ascii
            (Dict.ofList [("event", .str "a@b.co@d.co")])) := by
  rintro ⟨hclean, -⟩
  have hvalue : (Dict.ofList [("event", Value.str "a@b.co@d.co")]).get? "event" =
      some (.str "a@b.co@d.co") := rfl
  have hmask : Regex.sub CharTable.ascii.word emailRe (maskEmail · 2) "a@b.co@d.co" =
      "*@b.co@d.co" := by decide
  have hmatch : matchAt CharTable.ascii.word emailRe ['*', '@'] "b.co@d.co".toList =
      some "b.co@d.co".toList := by decide
  refine hclean "event" "*@b.co@d.co" ?_ (contains_of_matchAt hmatch)
  rw [get?_redactSensitiveData, hvalue, Option.map_some, redactValue_str (by decide), hmask]

end Masking

/-! ## Sensitive keys at every depth -/

/-- Somewhere inside the value, `w` stands under the key `k`. -/
inductive Holds (k : String) (w : Value) : Value → Prop where
  | entry {kvs : List (String × Value)} : (k, w) ∈ kvs → Holds k w (.dict kvs)
  | dict {kvs : List (String × Value)} {k' : String} {v : Value} :
      (k', v) ∈ kvs → Holds k w v → Holds k w (.dict kvs)
  | list {vs : List Value} {v : Value} : v ∈ vs → Holds k w v → Holds k w (.list vs)

section Depth
variable (lower : String → String) (t : CharTable)

/-- Only the placeholder stands under a sensitive key inside the value. -/
def Masked (v : Value) : Prop :=
  ∀ k w, Holds k w v → lower k ∈ sensitiveKeys → w = .str "***"

theorem masked_str (s : String) : Masked lower (.str s) := nofun

theorem masked_dict_iff (kvs : List (String × Value)) :
    Masked lower (.dict kvs) ↔
      ∀ k v, (k, v) ∈ kvs → (lower k ∈ sensitiveKeys → v = .str "***") ∧ Masked lower v := by
  constructor
  · intro h k v hkv
    exact ⟨h k v (.entry hkv), fun k' w hw => h k' w (.dict hkv hw)⟩
  · rintro h k w (hkv | ⟨hkv, hw⟩)
    · exact (h k w hkv).1
    · exact (h _ _ hkv).2 k w hw

theorem masked_redactValue_iff (k : String) (v : Value) :
    Masked lower (redactValue lower t k v) ↔ (lower k ∉ sensitiveKeys → Masked lower v) := by
  by_cases hsensitive : lower k ∈ sensitiveKeys
  · rw [redactValue_of_sensitive hsensitive]
    exact iff_of_true (masked_str lower "***") fun h => absurd hsensitive h
  · by_cases hstr : ∃ s, v = .str s
    · obtain ⟨s, rfl⟩ := hstr
      rw [redactValue_str hsensitive]
      exact iff_of_true (masked_str lower _) fun _ => masked_str lower s
    · rw [redactValue_of_not_str hsensitive fun s hs => hstr ⟨s, hs⟩]
      exact ⟨fun h _ => h, fun h => h hsensitive⟩

/-- Redaction has not looked into the values under the other keys. -/
theorem masked_of_masked_redactSensitiveData {d : Dict String Value}
    (h : Masked lower (.dict (redactSensitiveData lower t d).items)) {k : String} {v : Value}
    (hget : d.get? k = some v) (hsensitive : lower k ∉ sensitiveKeys) : Masked lower v := by
  rw [masked_dict_iff, items_redactSensitiveData] at h
  refine (masked_redactValue_iff lower t k v).mp (h k _ ?_).2 hsensitive
  exact List.mem_map.mpr ⟨(k, v), (d.get?_eq_some_iff k v).mp hget, rfl⟩

/-- In the redacted event only the placeholder stands under the sensitive keys exactly where that
was so inside the values under the other keys. -/
theorem redactSensitiveData_masked_iff (lower : String → String) (t : CharTable)
    (d : Dict String Value) :
    Masked lower (.dict (redactSensitiveData lower t d).items) ↔
      ∀ k v, d.get? k = some v → lower k ∉ sensitiveKeys → Masked lower v := by
  constructor
  · exact fun h k v hget => masked_of_masked_redactSensitiveData lower t h hget
  · rw [masked_dict_iff, items_redactSensitiveData]
    intro h k w hkw
    obtain ⟨⟨k', v⟩, hmem, heq⟩ := List.mem_map.mp hkw
    obtain ⟨rfl, rfl⟩ := Prod.mk.inj heq
    have hvalue := h k' v ((d.get?_eq_some_iff k' v).mpr hmem)
    exact ⟨fun hsensitive => redactValue_of_sensitive hsensitive v,
      (masked_redactValue_iff lower t k' v).mpr hvalue⟩

/-- A request with a token among its query parameters. -/
def tokenRecord : Middleware.AuditRecord where
  timestamp := "2024-05-01T00:00:00+00:00"
  method := "POST"
  path := "http://testserver/api/v1/jobs?token=t0k3n"
  queryParams := [("token", "t0k3n")]
  clientIp := some "127.0.0.1"
  userAgent := none
  requestId := none
  correlationId := none
  tenantId := none
  userId := .none
  statusCode := 202

/-- The token is in the audit event after redaction. -/
theorem not_masked_auditEvent :
    ¬Masked Text.lower
      (.dict (redactSensitiveData Text.lower .ascii (auditEvent tokenRecord)).items) := by
  intro h
  have hextra := masked_of_masked_redactSensitiveData Text.lower .ascii h (k := "extra") rfl
    (by decide)
  have haudit := ((masked_dict_iff _ _).mp hextra "audit" _ List.mem_cons_self).2
  have hparams := ((masked_dict_iff _ _).mp haudit "query_params" _
    (.tail _ (.tail _ (.tail _ (.head _))))).2
  have htoken := ((masked_dict_iff _ _).mp hparams "token" (.str "t0k3n") List.mem_cons_self).1
  exact absurd (Value.str.inj (htoken (by decide))) (by decide)

end Depth

end RagEval.Security
