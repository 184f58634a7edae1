import OciWrapper.Infra.SessionCache
import OciWrapper.Text.Separated

namespace OciWrapper.Infra

open OciWrapper.Text

/-- The fields that `session_record_t` has no more room for. -/
structure SessionRecord.FitsFields (rec : SessionRecord) : Prop where
  sessionId : rec.sessionId.length ≤ 36
  createdTs : rec.createdTs.natAbs < 2 ^ 64
  lastActivityTs : rec.lastActivityTs.natAbs < 2 ^ 64
  ttlSeconds : rec.ttlSeconds.natAbs < 2 ^ 32
  clientId : rec.clientId.length < 128
  clientIp : rec.clientIp.length < 64
  clientHost : rec.clientHost.length < 128
  applicationName : rec.applicationName.length < 128

/-- A text that the encoding keeps in an optional field. -/
def Keepable (s : CString) : Prop := '|' ∉ s ∧ s ≠ ['-']

instance (s : CString) : Decidable (Keepable s) := inferInstanceAs (Decidable (_ ∧ _))

/-- No field of the record is taken apart, dropped or read as empty. -/
structure SessionRecord.Separable (rec : SessionRecord) : Prop where
  named : rec.sessionId ≠ []
  sessionId : '|' ∉ rec.sessionId
  clientId : Keepable rec.clientId
  clientIp : Keepable rec.clientIp
  clientHost : Keepable rec.clientHost
  applicationName : Keepable rec.applicationName

/-- The fields of the encoding in order. -/
def SessionRecord.tokens (rec : SessionRecord) : List CString :=
  [encodingVersion, rec.sessionId, sessionStatusStr rec.status, Text.decimal rec.createdTs,
    Text.decimal rec.lastActivityTs, Text.decimal rec.ttlSeconds, orDash rec.clientId,
    orDash rec.clientIp, orDash rec.clientHost, orDash rec.applicationName]

theorem decimal_length_le {n : Int} {k : Nat} (some : 0 < k) (bound : n.natAbs < 10 ^ k) :
    (Text.decimal n).length ≤ k + 1 := by
  have digits := (Nat.length_toDigits_le_iff (b := 10) (by decide) some).mpr bound
  rw [Text.decimal]
  split
  · rw [List.length_cons]
    omega
  · omega

theorem orDash_length_le (s : CString) : (orDash s).length ≤ s.length + 1 := by
  rw [orDash]
  split
  · exact Nat.le_add_left 1 _
  · omega

theorem sessionStatusStr_length_le (status : SessionStatus) :
    (sessionStatusStr status).length ≤ 14 := by
  cases status <;> decide

theorem sessionStatusFromStr_str (status : SessionStatus) :
    sessionStatusFromStr (sessionStatusStr status) = status := by
  cases status <;> decide

/-- A record whose texts fit their fields fits the buffer of its encoding. -/
theorem sessionCacheEncode_of_fits {rec : SessionRecord} (fits : rec.FitsFields) :
    sessionCacheEncode rec = some (['|'].intercalate rec.tokens) ∧
      (['|'].intercalate rec.tokens).length < encodedMax := by
  have short : (['|'].intercalate rec.tokens).length < encodedMax := by
    have version : encodingVersion.length = 3 := rfl
    have status := sessionStatusStr_length_le rec.status
    have created := decimal_length_le (k := 20) (by decide)
      (Nat.lt_trans fits.createdTs (by decide))
    have activity := decimal_length_le (k := 20) (by decide)
      (Nat.lt_trans fits.lastActivityTs (by decide))
    have ttl := decimal_length_le (k := 10) (by decide) (Nat.lt_trans fits.ttlSeconds (by decide))
    have client := orDash_length_le rec.clientId
    have ip := orDash_length_le rec.clientIp
    have host := orDash_length_le rec.clientHost
    have name := orDash_length_le rec.applicationName
    obtain ⟨id, -, -, -, idRoom, ipRoom, hostRoom, nameRoom⟩ := fits
    simp only [SessionRecord.tokens, List.intercalate_cons_cons, List.intercalate_singleton,
      List.length_append, List.length_singleton]
    rw [encodedMax]
    omega
  refine ⟨?_, short⟩
  have read : sessionCacheEncode rec =
      if encodedMax ≤ (['|'].intercalate rec.tokens).length then none
      else some (['|'].intercalate rec.tokens) := rfl
  rw [read, if_neg (by omega)]

theorem separator_not_mem_decimal (n : Int) : '|' ∉ Text.decimal n := by
  have digits : '|' ∉ Nat.toDigits 10 n.natAbs := by
    intro member
    have digit := Nat.isDigit_of_mem_toDigits (b := 10) (by decide) (by decide) member
    cases digit
  rw [Text.decimal]
  split
  · rw [List.mem_cons, not_or]
    exact ⟨by decide, digits⟩
  · exact digits

theorem separator_not_mem_orDash {s : CString} (free : '|' ∉ s) : '|' ∉ orDash s := by
  rw [orDash]
  split
  · decide
  · exact free

theorem orDash_ne_nil (s : CString) : orDash s ≠ [] := by
  rw [orDash]
  split
  · exact List.cons_ne_nil '-' []
  · assumption

theorem decimal_ne_nil (n : Int) : Text.decimal n ≠ [] := by
  rw [Text.decimal]
  split
  · exact List.cons_ne_nil '-' _
  · exact Nat.toDigits_ne_nil

theorem SessionRecord.Separable.tokens_free {rec : SessionRecord} (separable : rec.Separable) :
    ∀ token ∈ rec.tokens, '|' ∉ token ∧ token ≠ [] := by
  obtain ⟨named, id, client, ip, host, name⟩ := separable
  have status : '|' ∉ sessionStatusStr rec.status ∧ sessionStatusStr rec.status ≠ [] := by
    cases rec.status <;> decide
  have number (n : Int) : '|' ∉ Text.decimal n ∧ Text.decimal n ≠ [] :=
    ⟨separator_not_mem_decimal n, decimal_ne_nil n⟩
  have optional {s : CString} (keepable : Keepable s) : '|' ∉ orDash s ∧ orDash s ≠ [] :=
    ⟨separator_not_mem_orDash keepable.1, orDash_ne_nil s⟩
  simp only [tokens, List.forall_mem_cons]
  exact ⟨by decide, ⟨id, named⟩, status, number _, number _, number _, optional client,
    optional ip, optional host, optional name, List.forall_mem_nil _⟩

theorem strtokAll_intercalate {separator : Char} {tokens : List CString} (some : tokens ≠ [])
    (free : ∀ token ∈ tokens, separator ∉ token ∧ token ≠ []) :
    strtokAll separator ([separator].intercalate tokens) = tokens := by
  rw [strtokAll, List.splitOn_intercalate separator (fun token member => (free token member).1) some,
    List.filter_eq_self]
  intro token member
  simpa using (free token member).2

theorem optionalField_orDash {tokens : List CString} {i size : Nat} {s : CString}
    (token : tokens[i]? = some (orDash s)) (keepable : Keepable s) (room : s.length < size) :
    optionalField tokens i size = s := by
  simp only [optionalField, token]
  by_cases empty : s = []
  · simp [orDash, empty]
  · have kept : orDash s = s := if_neg empty
    rw [kept, if_neg keepable.2]
    exact List.take_of_length_le (by omega)

theorem sessionCacheDecode_tokens {rec : SessionRecord} (fits : rec.FitsFields)
    (separable : rec.Separable) :
    sessionCacheDecode (['|'].intercalate rec.tokens) = some rec := by
  have whole : (['|'].intercalate rec.tokens).take (encodedMax - 1) =
      ['|'].intercalate rec.tokens :=
    List.take_of_length_le (Nat.le_sub_one_of_lt (sessionCacheEncode_of_fits fits).2)
  have read : strtokAll '|' (['|'].intercalate rec.tokens) = rec.tokens :=
    strtokAll_intercalate (List.cons_ne_nil _ _) separable.tokens_free
  rw [sessionCacheDecode, whole, read]
  simp only [SessionRecord.tokens, if_true, sessionStatusFromStr_str, Text.atol_decimal,
    List.take_of_length_le fits.sessionId]
  rw [optionalField_orDash rfl separable.clientId fits.clientId,
    optionalField_orDash rfl separable.clientIp fits.clientIp,
    optionalField_orDash rfl separable.clientHost fits.clientHost,
    optionalField_orDash rfl separable.applicationName fits.applicationName]

theorem optionalField_keepable {tokens : List CString} (free : ∀ token ∈ tokens, '|' ∉ token)
    {i size : Nat} (room : 2 < size) : Keepable (optionalField tokens i size) := by
  simp only [optionalField]
  split
  next token found =>
    split
    · exact ⟨List.not_mem_nil, List.ne_nil_of_mem List.mem_cons_self |>.symm⟩
    next other =>
      refine ⟨fun member => ?_, fun dash => ?_⟩
      · exact free token (List.mem_of_getElem? found) (List.mem_of_mem_take member)
      · have single := congrArg List.length dash
        rw [List.length_take, List.length_singleton] at single
        rw [List.take_of_length_le (by omega)] at dash
        exact other dash
  · exact ⟨List.not_mem_nil, List.ne_nil_of_mem List.mem_cons_self |>.symm⟩

/-- What is read back is a record that the encoding keeps. -/
theorem sessionCacheDecode_separable {encoded : CString} {rec : SessionRecord}
    (decoded : sessionCacheDecode encoded = some rec) : rec.Separable := by
  have pieces : ∀ token ∈ strtokAll '|' (encoded.take (encodedMax - 1)),
      '|' ∉ token ∧ token ≠ [] := by
    intro token member
    rw [strtokAll, List.mem_filter] at member
    exact ⟨not_mem_of_mem_splitOn member.1, by simpa using member.2⟩
  unfold sessionCacheDecode at decoded
  split at decoded
  next version sessionId status created lastActivity ttl rest tokens =>
    rw [tokens] at pieces
    simp only [List.forall_mem_cons] at pieces
    obtain ⟨-, ⟨free, filled⟩, -, -, -, -, others⟩ := pieces
    split at decoded
    · cases decoded
      have optional (i : Nat) {size : Nat} (room : 2 < size) :
          Keepable (optionalField rest i size) :=
        optionalField_keepable (fun token member => (others token member).1) room
      refine ⟨fun empty => ?_, fun member => free (List.mem_of_mem_take member),
        optional 0 (by decide), optional 1 (by decide), optional 2 (by decide),
        optional 3 (by decide)⟩
      rcases List.take_eq_nil_iff.mp empty with zero | none
      · cases zero
      · exact filled none
    · cases decoded
  · cases decoded

/-- A record that fits its fields is read back exactly when no separator, dash or missing id shifts
the tokens. -/
theorem session_round_trips_iff {rec : SessionRecord} (fits : rec.FitsFields) :
    (sessionCacheEncode rec).bind sessionCacheDecode = some rec ↔ rec.Separable := by
  rw [(sessionCacheEncode_of_fits fits).1, Option.bind_some]
  exact ⟨sessionCacheDecode_separable, sessionCacheDecode_tokens fits⟩

def webSession (clientId : CString) : SessionRecord where
  sessionId := "7f3c".toList
  status := .active
  createdTs := 1767225600
  lastActivityTs := 1767225660
  ttlSeconds := 900
  clientId := clientId
  clientIp := "10.0.0.7".toList
  clientHost := []
  applicationName := "Data_Manager".toList

theorem webSession_fits {clientId : CString} (room : clientId.length < 128) :
    (webSession clientId).FitsFields :=
  { sessionId := show "7f3c".toList.length ≤ 36 by decide
    createdTs := show (1767225600 : Int).natAbs < 2 ^ 64 by decide
    lastActivityTs := show (1767225660 : Int).natAbs < 2 ^ 64 by decide
    ttlSeconds := show (900 : Int).natAbs < 2 ^ 32 by decide
    clientId := room
    clientIp := show "10.0.0.7".toList.length < 64 by decide
    clientHost := show 0 < 128 by decide
    applicationName := show "Data_Manager".toList.length < 128 by decide }

theorem session_round_trips_web :
    (webSession "web".toList).FitsFields ∧
      ((sessionCacheEncode (webSession "web".toList)).bind sessionCacheDecode =
        some (webSession "web".toList) ↔ (webSession "web".toList).Separable) :=
  ⟨webSession_fits (by decide), session_round_trips_iff (webSession_fits (by decide))⟩

/-- A client id with a separator: the host becomes a part of the id. -/
theorem piped_client_is_not_read_back :
    (webSession "a|b".toList).FitsFields ∧
      (sessionCacheEncode (webSession "a|b".toList)).bind sessionCacheDecode ≠
        some (webSession "a|b".toList) := by
  have fits : (webSession "a|b".toList).FitsFields := webSession_fits (by decide)
  refine ⟨fits, fun decoded => ?_⟩
  rw [(sessionCacheEncode_of_fits fits).1, Option.bind_some] at decoded
  exact absurd (sessionCacheDecode_separable decoded).clientId.1 (by decide)

end OciWrapper.Infra
