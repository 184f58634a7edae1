import OciWrapper.Text.Csv
import OciWrapper.Text.Numerals
import OciWrapper.Dates.DateNormalize

namespace OciWrapper.Infra

open OciWrapper.Text OciWrapper.Dates

/-- `for (const char *p = src; *p && wi < dest_max - 3; p++)`. -/
def csvQuoteLoop (destMax : Nat) : Nat → CString → CString
  | _, [] => []
  | wi, c :: p =>
    if wi < destMax - 3 then
      if c = '"' then '"' :: '"' :: csvQuoteLoop destMax (wi + 2) p
      else c :: csvQuoteLoop destMax (wi + 1) p
    else []

/-- `csv_field`. -/
def csvField (destMax : Nat) (src : CString) : CString :=
  if src = [] then ['-'].take (destMax - 1)
  else if src.any (fun c => c == ',' || c == '"' || c == '\n' || c == '\r') then
    let front := if 0 < destMax - 1 then ['"'] else []
    let text := front ++ csvQuoteLoop destMax front.length src
    if text.length < destMax - 1 then text ++ ['"'] else text
  else src.take (destMax - 1)

def flattenLoop : Bool → CString → CString
  | _, [] => []
  | lastSpace, c :: p =>
    if c = '\n' ∨ c = '\r' ∨ c = '\t' then
      if lastSpace then flattenLoop true p else ' ' :: flattenLoop true p
    else if c = ' ' then
      if lastSpace then flattenLoop true p else ' ' :: flattenLoop true p
    else c :: flattenLoop false p

/-- `flatten_for_csv`. -/
def flattenForCsv (src : CString) : CString := if src = [] then ['-'] else flattenLoop false src

def flattenQuotedLoop : CString → CString
  | [] => []
  | c :: p =>
    if c = '"' then '"' :: '"' :: flattenQuotedLoop p
    else if c = '\n' ∨ c = '\r' ∨ c = '\t' then ' ' :: flattenQuotedLoop p
    else c :: flattenQuotedLoop p

/-- `flatten_for_csv3`. -/
def flattenForCsv3 (src : CString) : CString :=
  if src = [] then ['-'] else '"' :: flattenQuotedLoop src ++ ['"']

/-- What `gmtime` gives, the year and the month as they are printed. -/
structure Tm where
  year : Nat
  mon : Nat
  mday : Nat
  hour : Nat
  min : Nat
  sec : Nat

/-- `metrics_format_timestamp_us`. -/
def metricsFormatTimestampUs (gmtime : Nat → Option Tm) (us : UInt64) (bufSize : Nat) : CString :=
  if us = 0 then ['-'].take (bufSize - 1)
  else
    match gmtime (us.toNat / 1000000) with
    | none => ['-'].take (bufSize - 1)
    | some tm =>
      (padded 4 tm.year ++ ['-'] ++ padded 2 tm.mon ++ ['-'] ++ padded 2 tm.mday ++ [' '] ++
        padded 2 tm.hour ++ [':'] ++ padded 2 tm.min ++ [':'] ++ padded 2 tm.sec ++ ['.'] ++
        padded 6 (us.toNat % 1000000)).take (bufSize - 1)

/-- `metrics_record_t`. -/
structure MetricsRecord where
  sessionId : CString
  transactionId : CString
  transactionName : CString
  auditId : CString
  consumerName : CString
  clientIp : CString
  hostName : CString
  serverIp : CString
  serverPort : UInt16
  processId : UInt32
  threadId : UInt32
  datasourceName : CString
  connectionId : UInt32
  poolId : UInt32
  operation : CString
  objectName : CString
  sqlHash : UInt64
  cacheKeyHash : UInt64
  startTimeUs : UInt64
  endTimeUs : UInt64
  cacheLookupUs : UInt64
  level1ParseUs : UInt64
  level2ParseUs : UInt64
  sqlParseUs : UInt64
  ldapBindUs : UInt64
  cryptVerifyUs : UInt64
  executionUs : UInt64
  totalUs : UInt64
  rowsAffected : UInt64
  outputXmlBytes : UInt64
  clobBytes : UInt64
  lobBytes : UInt64
  bytesProcessed : UInt64
  cacheHit : Int32
  statusCode : Int32
  errorCode : CString
  errorText : CString
  connectionWaitUs : UInt64
  connectionCreateUs : UInt64
  connectionAcquireUs : UInt64
  inputFileName : Option CString
  inputRequest : Option CString
  outputResponse : Option CString

/-- The record after the final three metrics of a request; a text that is not displayed, or that
there is none of, is `NULL`. -/
def MetricsRecord.withTexts (m : MetricsRecord) (fileName request response : Option CString) :
    MetricsRecord :=
  { m with
    inputFileName := fileName.map flattenForCsv
    inputRequest := request.map flattenForCsv3
    outputResponse := response.map flattenForCsv3 }

/-- `metrics_init`. -/
def metricsInit : MetricsRecord :=
  ⟨['-'], ['-'], ['-'], ['-'], ['-'], ['-'], ['-'], ['-'], 0, 0, 0, ['-'], 0, 0, ['-'], ['-'],
    0, 0, 0, 0, 0, 0, 0, 0, 0, 0, 0, 0, 0, 0, 0, 0, 0, 0, 0, ['-'], ['-'], 0, 0, 0,
    none, none, none⟩

/-- `%u` and `%llu`. -/
def unsigned (n : Nat) : CString := Nat.toDigits 10 n

/-- The arguments of the `fprintf`, as they are printed. -/
def metricsTexts (gmtime : Nat → Option Tm) (m : MetricsRecord) : List CString :=
  [csvField 512 m.sessionId,
    csvField 512 m.transactionId,
    csvField 512 m.transactionName,
    csvField 512 m.auditId,
    csvField 512 m.consumerName,
    csvField 512 m.clientIp,
    csvField 512 m.hostName,
    csvField 512 m.serverIp,
    unsigned m.serverPort.toNat,
    unsigned m.processId.toNat,
    unsigned m.threadId.toNat,
    csvField 512 m.datasourceName,
    unsigned m.connectionId.toNat,
    unsigned m.poolId.toNat,
    csvField 512 m.operation,
    csvField 512 m.objectName,
    unsigned m.sqlHash.toNat,
    unsigned m.cacheKeyHash.toNat,
    metricsFormatTimestampUs gmtime m.startTimeUs 48,
    metricsFormatTimestampUs gmtime m.endTimeUs 48,
    unsigned m.cacheLookupUs.toNat,
    unsigned m.level1ParseUs.toNat,
    unsigned m.level2ParseUs.toNat,
    unsigned m.sqlParseUs.toNat,
    unsigned m.ldapBindUs.toNat,
    unsigned m.cryptVerifyUs.toNat,
    unsigned m.executionUs.toNat,
    unsigned m.totalUs.toNat,
    unsigned m.rowsAffected.toNat,
    unsigned m.outputXmlBytes.toNat,
    unsigned m.clobBytes.toNat,
    unsigned m.lobBytes.toNat,
    unsigned m.bytesProcessed.toNat,
    Text.decimal m.cacheHit.toInt,
    Text.decimal m.statusCode.toInt,
    csvField 512 m.errorCode,
    csvField 512 m.errorText,
    unsigned m.connectionWaitUs.toNat,
    unsigned m.connectionCreateUs.toNat,
    unsigned m.connectionAcquireUs.toNat,
    m.inputFileName.getD ['-'],
    m.inputRequest.getD ['-'],
    m.outputResponse.getD ['-']]

/-- The row that `metrics_write` prints. -/
def metricsLine (gmtime : Nat → Option Tm) (m : MetricsRecord) : CString :=
  recordLine (metricsTexts gmtime m)

/-- `METRICS_CSV_HEADER`. -/
def metricsCsvHeader : CString :=
  ["session_id,", "transaction_id,", "transaction_name,", "audit_id,", "consumer_name,",
    "client_ip,", "host_name,", "server_ip,", "server_port,", "process_id,", "thread_id,",
    "datasource_name,", "connection_id,", "pool_id,", "operation,", "object_name,", "sql_hash,",
    "cache_key_hash,", "start_time_us,", "end_time_us,", "cache_lookup_us,", "level1_parse_us,",
    "level2_parse_us,", "sql_parse_us,", "ldap_bind_us,", "crypt_verify_us,", "execution_us,",
    "total_us,", "rows_affected,", "output_xml_bytes,", "clob_bytes,", "lob_bytes,",
    "bytes_processed,", "cache_hit,", "status_code,", "error_code,", "error_text,",
    "connection_wait_us,", "connection_create_us,", "connection_acquire_us,", "input_file_name,",
    "input_request,", "output_response"].flatMap String.toList

/-- What a column is to show. -/
inductive MetricValue
  | text (src : CString)
  | number (n : Int)
  | time (us : UInt64)
  | fileName (src : Option CString)
  | body (src : Option CString)

/-- The value of each column of the header. -/
def metricsColumns (m : MetricsRecord) (fileName request response : Option CString) :
    List (String × MetricValue) :=
  [("session_id", .text m.sessionId),
    ("transaction_id", .text m.transactionId),
    ("transaction_name", .text m.transactionName),
    ("audit_id", .text m.auditId),
    ("consumer_name", .text m.consumerName),
    ("client_ip", .text m.clientIp),
    ("host_name", .text m.hostName),
    ("server_ip", .text m.serverIp),
    ("server_port", .number m.serverPort.toNat),
    ("process_id", .number m.processId.toNat),
    ("thread_id", .number m.threadId.toNat),
    ("datasource_name", .text m.datasourceName),
    ("connection_id", .number m.connectionId.toNat),
    ("pool_id", .number m.poolId.toNat),
    ("operation", .text m.operation),
    ("object_name", .text m.objectName),
    ("sql_hash", .number m.sqlHash.toNat),
    ("cache_key_hash", .number m.cacheKeyHash.toNat),
    ("start_time_us", .time m.startTimeUs),
    ("end_time_us", .time m.endTimeUs),
    ("cache_lookup_us", .number m.cacheLookupUs.toNat),
    ("level1_parse_us", .number m.level1ParseUs.toNat),
    ("level2_parse_us", .number m.level2ParseUs.toNat),
    ("sql_parse_us", .number m.sqlParseUs.toNat),
    ("ldap_bind_us", .number m.ldapBindUs.toNat),
    ("crypt_verify_us", .number m.cryptVerifyUs.toNat),
    ("execution_us", .number m.executionUs.toNat),
    ("total_us", .number m.totalUs.toNat),
    ("rows_affected", .number m.rowsAffected.toNat),
    ("output_xml_bytes", .number m.outputXmlBytes.toNat),
    ("clob_bytes", .number m.clobBytes.toNat),
    ("lob_bytes", .number m.lobBytes.toNat),
    ("bytes_processed", .number m.bytesProcessed.toNat),
    ("cache_hit", .number m.cacheHit.toInt),
    ("status_code", .number m.statusCode.toInt),
    ("error_code", .text m.errorCode),
    ("error_text", .text m.errorText),
    ("connection_wait_us", .number m.connectionWaitUs.toNat),
    ("connection_create_us", .number m.connectionCreateUs.toNat),
    ("connection_acquire_us", .number m.connectionAcquireUs.toNat),
    ("input_file_name", .fileName fileName),
    ("input_request", .body request),
    ("output_response", .body response)]

def isFlat (c : Char) : Bool := c == '\n' || c == '\r' || c == '\t' || c == ' '

/-- Line breaks, tabs and blanks, each run of them as one blank. -/
inductive Flattened : CString → CString → Prop
  | nil : Flattened [] []
  | char {c : Char} {src value : CString} (plain : isFlat c = false) (rest : Flattened src value) :
      Flattened (c :: src) (c :: value)
  | blanks {run src value : CString} (filled : run ≠ []) (flat : ∀ c ∈ run, isFlat c = true)
      (whole : ∀ c, src.head? = some c → isFlat c = false) (rest : Flattened src value) :
      Flattened (run ++ src) (' ' :: value)

/-- Line breaks and tabs, each as a blank. -/
def lineBlank (c : Char) : Char := if c = '\n' ∨ c = '\r' ∨ c = '\t' then ' ' else c

/-- What a field of the line tells of a value: `-` where there is none, and of a text in a fixed
field all, or a front that fills its buffer. -/
inductive Shows (gmtime : Nat → Option Tm) : MetricValue → CString → Prop
  | noText : Shows gmtime (.text []) ['-']
  | text {src value : CString} (filled : src ≠ []) (front : value <+: src)
      (all : value = src ∨ 512 ≤ value.length + value.count '"' + 4) :
      Shows gmtime (.text src) value
  | number (n : Int) : Shows gmtime (.number n) (Text.decimal n)
  | time (us : UInt64) : Shows gmtime (.time us) (metricsFormatTimestampUs gmtime us 48)
  | noFile {src : Option CString} (missing : src.getD [] = []) : Shows gmtime (.fileName src) ['-']
  | fileName {src value : CString} (filled : src ≠ []) (flat : Flattened src value) :
      Shows gmtime (.fileName (some src)) value
  | noBody {src : Option CString} (missing : src.getD [] = []) : Shows gmtime (.body src) ['-']
  | body {src : CString} (filled : src ≠ []) : Shows gmtime (.body (some src)) (src.map lineBlank)

/-- The line has a field for each column of the header, which shows the column's value. -/
def LineShows (gmtime : Nat → Option Tm) (m : MetricsRecord)
    (fileName request response : Option CString) : Prop :=
  readRecord (metricsCsvHeader ++ ['\n']) =
      some ((metricsColumns m fileName request response).map (·.1.toList), []) ∧
    ∃ values, readRecord (metricsLine gmtime (m.withTexts fileName request response)) =
        some (values, []) ∧
      List.Forall₂ (Shows gmtime)
        ((metricsColumns m fileName request response).map (·.2)) values

section Fields

theorem csvQuoteLoop_spec {destMax : Nat} (src : CString) : ∀ wi : Nat,
    ∃ kept, kept <+: src ∧ csvQuoteLoop destMax wi src = escapeQuotes kept ∧
      (kept = src ∨ destMax ≤ wi + (escapeQuotes kept).length + 3) ∧
      (wi + 2 ≤ destMax → wi + (escapeQuotes kept).length + 2 ≤ destMax) := by
  induction src with
  | nil =>
    intro wi
    exact ⟨[], List.prefix_refl _, rfl, Or.inl rfl, id⟩
  | cons c src ih =>
    intro wi
    rw [csvQuoteLoop]
    by_cases room : wi < destMax - 3
    · rw [if_pos room]
      obtain ⟨size, one⟩ : ∃ size, (escapeQuote c).length = size ∧ size ≤ 2 := by
        refine ⟨_, rfl, ?_⟩
        rw [escapeQuote]
        split <;> exact Nat.le_of_ble_eq_true rfl
      obtain ⟨kept, front, text, cut, fits⟩ := ih (wi + (escapeQuote c).length)
      have shape : (if c = '"' then '"' :: '"' :: csvQuoteLoop destMax (wi + 2) src
          else c :: csvQuoteLoop destMax (wi + 1) src) =
          escapeQuote c ++ csvQuoteLoop destMax (wi + (escapeQuote c).length) src := by
        rw [escapeQuote]
        split <;> rfl
      refine ⟨c :: kept, (List.cons_prefix_cons).mpr ⟨rfl, front⟩, ?_, ?_, ?_⟩
      · rw [shape, text, escapeQuotes_cons]
      · rw [escapeQuotes_cons, List.length_append]
        rcases cut with rfl | full
        · exact Or.inl rfl
        · exact Or.inr (by omega)
      · intro enough
        rw [escapeQuotes_cons, List.length_append]
        omega
    · rw [if_neg room]
      exact ⟨[], List.nil_prefix, rfl, Or.inr (by simp [escapeQuotes]; omega), id⟩

theorem encodes_dash : Encodes ['-'] ['-'] :=
  encodes_plain (List.forall_mem_singleton.mpr rfl)

/-- Each fixed field. -/
theorem csvField_shows (gmtime : Nat → Option Tm) (src : CString) : ∃ value,
    Encodes (csvField 512 src) value ∧ Shows gmtime (.text src) value := by
  rw [csvField]
  by_cases empty : src = []
  · rw [if_pos empty, empty]
    exact ⟨['-'], encodes_dash, .noText⟩
  rw [if_neg empty]
  by_cases quoted : src.any (fun c => c == ',' || c == '"' || c == '\n' || c == '\r') = true
  · rw [if_pos quoted]
    obtain ⟨kept, front, text, cut, fits⟩ := @csvQuoteLoop_spec 512 src 1
    have room := fits (by omega)
    have size := length_escapeQuotes kept
    have opened : (if 0 < 512 - 1 then ['"'] else []) = ['"'] := if_pos (by omega)
    dsimp only
    rw [opened, List.length_singleton, text, if_pos]
    · refine ⟨kept, encodes_quoted kept, .text empty front ?_⟩
      rcases cut with all | full
      · exact Or.inl all
      · exact Or.inr (by omega)
    · rw [List.length_append, List.length_singleton]
      omega
  · rw [if_neg quoted]
    have plain : ∀ c ∈ src, csvText c = true := by
      intro c member
      rw [csvText, Bool.not_eq_true']
      exact Bool.eq_false_iff.mpr fun special =>
        quoted (List.any_eq_true.mpr ⟨c, member, special⟩)
    refine ⟨src.take (512 - 1), encodes_plain fun c member => plain c (List.mem_of_mem_take member),
      .text empty (List.take_prefix _ src) ?_⟩
    by_cases short : src.length ≤ 511
    · exact Or.inl (List.take_of_length_le short)
    · refine Or.inr ?_
      rw [List.length_take]
      omega

theorem digits_plain {n : Nat} : ∀ c ∈ Nat.toDigits 10 n, csvText c = true := by
  intro c member
  have digit := @Nat.isDigit_of_mem_toDigits _ _ _ (by omega) (by omega) member
  rw [csvText, Bool.not_eq_true', Bool.eq_false_iff]
  intro special
  simp only [Bool.or_eq_true, beq_iff_eq] at special
  rcases special with ((rfl | rfl) | rfl) | rfl <;> cases digit

theorem decimal_plain (n : Int) : ∀ c ∈ Text.decimal n, csvText c = true := by
  intro c member
  rw [Text.decimal] at member
  split at member
  · rcases List.mem_cons.mp member with rfl | member
    · rfl
    · exact digits_plain c member
  · exact digits_plain c member

theorem padded_plain (width n : Nat) : ∀ c ∈ padded width n, csvText c = true := by
  intro c member
  rcases List.mem_append.mp member with zeros | digits
  · rw [(List.mem_replicate.mp zeros).2]
    rfl
  · exact digits_plain c digits

theorem timestamp_plain (gmtime : Nat → Option Tm) (us : UInt64) :
    ∀ c ∈ metricsFormatTimestampUs gmtime us 48, csvText c = true := by
  have mark : ∀ m : Char, csvText m = true → ∀ c ∈ [m], csvText c = true := by
    intro m plain c member
    rwa [List.mem_singleton.mp member]
  have join : ∀ {a b : CString}, (∀ c ∈ a, csvText c = true) → (∀ c ∈ b, csvText c = true) →
      ∀ c ∈ a ++ b, csvText c = true :=
    fun first second => List.forall_mem_append.mpr ⟨first, second⟩
  rw [metricsFormatTimestampUs]
  split
  · exact mark '-' rfl
  · split
    · exact mark '-' rfl
    · intro c member
      refine join (join (join (join (join (join (join (join (join (join (join (join
        (padded_plain 4 _) (mark '-' rfl)) (padded_plain 2 _)) (mark '-' rfl)) (padded_plain 2 _))
        (mark ' ' rfl)) (padded_plain 2 _)) (mark ':' rfl)) (padded_plain 2 _)) (mark ':' rfl))
        (padded_plain 2 _)) (mark '.' rfl)) (padded_plain 6 _) c (List.mem_of_mem_take member)

end Fields

section Texts

theorem flattenLoop_flat {c : Char} (flat : isFlat c = true) (last : Bool) (p : CString) :
    flattenLoop last (c :: p) =
      if last then flattenLoop true p else ' ' :: flattenLoop true p := by
  simp only [isFlat, Bool.or_eq_true, beq_iff_eq, or_assoc] at flat
  rw [flattenLoop]
  by_cases breaks : c = '\n' ∨ c = '\r' ∨ c = '\t'
  · rw [if_pos breaks]
  · have blank : c = ' ' := by tauto
    rw [if_neg breaks, if_pos blank]

theorem flattenLoop_char {c : Char} (plain : isFlat c = false) (last : Bool) (p : CString) :
    flattenLoop last (c :: p) = c :: flattenLoop false p := by
  simp only [isFlat, Bool.or_eq_false_iff, beq_eq_false_iff_ne] at plain
  have breaks : ¬(c = '\n' ∨ c = '\r' ∨ c = '\t') := by tauto
  rw [flattenLoop, if_neg breaks, if_neg plain.2]

theorem flattenLoop_run {run : CString} (flat : ∀ c ∈ run, isFlat c = true) (p : CString) :
    flattenLoop true (run ++ p) = flattenLoop true p := by
  induction run with
  | nil => rfl
  | cons c run ih =>
    obtain ⟨first, rest⟩ := List.forall_mem_cons.mp flat
    rw [List.cons_append, flattenLoop_flat first, if_pos rfl, ih rest]

/-- The loop gives the flattened text, also right behind a blank where none follows. -/
theorem Flattened.loop {src value : CString} (flattened : Flattened src value) :
    flattenLoop false src = value ∧
      ((∀ c, src.head? = some c → isFlat c = false) → flattenLoop true src = value) := by
  induction flattened with
  | nil => exact ⟨rfl, fun _ => rfl⟩
  | @char c src value plain rest ih =>
    rw [flattenLoop_char plain, flattenLoop_char plain, ih.1]
    exact ⟨rfl, fun _ => rfl⟩
  | @blanks run src value filled flat whole rest ih =>
    cases run with
    | nil => exact absurd rfl filled
    | cons c run =>
      obtain ⟨first, others⟩ := List.forall_mem_cons.mp flat
      constructor
      · rw [List.cons_append, flattenLoop_flat first, if_neg Bool.false_ne_true,
          flattenLoop_run others, ih.2 whole]
      · intro plain
        rw [plain c rfl] at first
        cases first

theorem exists_flattened {n : Nat} : ∀ {src : CString}, src.length ≤ n →
    ∃ value, Flattened src value := by
  induction n with
  | zero =>
    intro src bound
    rw [List.eq_nil_of_length_eq_zero (Nat.le_zero.mp bound)]
    exact ⟨[], .nil⟩
  | succ n ih =>
    intro src bound
    cases src with
    | nil => exact ⟨[], .nil⟩
    | cons c p =>
      have room : p.length ≤ n := Nat.le_of_succ_le_succ bound
      cases flat : isFlat c with
      | false =>
        obtain ⟨value, rest⟩ := ih room
        exact ⟨c :: value, .char flat rest⟩
      | true =>
        have shorter := (List.dropWhile_suffix isFlat (l := p)).length_le
        obtain ⟨value, rest⟩ := @ih (p.dropWhile isFlat) (by omega)
        have split : c :: p = (c :: p.takeWhile isFlat) ++ p.dropWhile isFlat := by
          rw [List.cons_append, List.takeWhile_append_dropWhile]
        rw [split]
        refine ⟨' ' :: value, .blanks (List.cons_ne_nil _ _) ?_ ?_ rest⟩
        · exact List.forall_mem_cons.mpr ⟨flat, fun d member => List.mem_takeWhile_imp member⟩
        · intro d head
          have stop := List.head?_dropWhile_not isFlat p
          rw [head] at stop
          exact stop

theorem flattened_loop (src : CString) : Flattened src (flattenLoop false src) := by
  obtain ⟨value, flattened⟩ := exists_flattened (Nat.le_refl src.length)
  rwa [flattened.loop.1]

/-- The characters of a flattened text. -/
theorem Flattened.mem_iff {src value : CString} (flattened : Flattened src value) {c : Char}
    (plain : isFlat c = false) : c ∈ value ↔ c ∈ src := by
  induction flattened with
  | nil => rfl
  | char _ rest ih => rw [List.mem_cons, List.mem_cons, ih]
  | @blanks run src value filled flat whole rest ih =>
    have blank : c ≠ ' ' := by
      rintro rfl
      cases plain
    have outside : c ∉ run := fun member => by
      rw [flat c member] at plain
      cases plain
    rw [List.mem_cons, List.mem_append, ih]
    exact ⟨fun found => Or.inr (found.resolve_left blank),
      fun found => Or.inr (found.resolve_left outside)⟩

theorem Flattened.one_line {src value : CString} (flattened : Flattened src value) :
    ∀ c ∈ value, c ≠ '\n' ∧ c ≠ '\r' := by
  induction flattened with
  | nil => exact List.forall_mem_nil _
  | @char c src value plain rest ih =>
    refine List.forall_mem_cons.mpr ⟨⟨?_, ?_⟩, ih⟩
    all_goals
      rintro rfl
      cases plain
  | blanks filled flat whole rest ih =>
    exact List.forall_mem_cons.mpr ⟨by decide, ih⟩

theorem flattenQuotedLoop_eq (src : CString) :
    flattenQuotedLoop src = escapeQuotes (src.map lineBlank) := by
  induction src with
  | nil => rfl
  | cons c p ih =>
    rw [List.map_cons, escapeQuotes_cons, flattenQuotedLoop, ih]
    by_cases quote : c = '"'
    · subst quote
      rfl
    · rw [if_neg quote]
      by_cases breaks : c = '\n' ∨ c = '\r' ∨ c = '\t'
      · have blank : lineBlank c = ' ' := if_pos breaks
        rw [if_pos breaks, blank]
        rfl
      · have same : lineBlank c = c := if_neg breaks
        rw [if_neg breaks, same, escapeQuote, if_neg quote]
        rfl

theorem body_shows (gmtime : Nat → Option Tm) (src : Option CString) : ∃ value,
    Encodes ((src.map flattenForCsv3).getD ['-']) value ∧ Shows gmtime (.body src) value := by
  cases src with
  | none => exact ⟨['-'], encodes_dash, .noBody rfl⟩
  | some src =>
    rw [Option.map_some, Option.getD_some, flattenForCsv3]
    by_cases empty : src = []
    · rw [if_pos empty, empty]
      exact ⟨['-'], encodes_dash, .noBody rfl⟩
    · rw [if_neg empty, flattenQuotedLoop_eq]
      exact ⟨_, encodes_quoted _, .body empty⟩

/-- A file name without quotes and commas. -/
theorem fileName_shows (gmtime : Nat → Option Tm) {src : Option CString}
    (plain : ∀ name, src = some name → ',' ∉ name ∧ '"' ∉ name) : ∃ value,
    Encodes ((src.map flattenForCsv).getD ['-']) value ∧
      Shows gmtime (.fileName src) value := by
  cases src with
  | none => exact ⟨['-'], encodes_dash, .noFile rfl⟩
  | some src =>
    rw [Option.map_some, Option.getD_some, flattenForCsv]
    by_cases empty : src = []
    · rw [if_pos empty, empty]
      exact ⟨['-'], encodes_dash, .noFile rfl⟩
    · rw [if_neg empty]
      have flattened := flattened_loop src
      refine ⟨_, encodes_plain fun c member => ?_, .fileName empty flattened⟩
      obtain ⟨comma, quote⟩ := plain src rfl
      have lines := flattened.one_line c member
      rw [csvText, Bool.not_eq_true', Bool.eq_false_iff]
      intro special
      simp only [Bool.or_eq_true, beq_iff_eq] at special
      rcases special with ((rfl | rfl) | rfl) | rfl
      · exact comma ((flattened.mem_iff rfl).mp member)
      · exact quote ((flattened.mem_iff rfl).mp member)
      · exact lines.1 rfl
      · exact lines.2 rfl

end Texts

section Line

variable {gmtime : Nat → Option Tm} {m : MetricsRecord} {fileName request response : Option CString}

/-- What is printed for a value. -/
def MetricValue.printed (gmtime : Nat → Option Tm) : MetricValue → CString
  | .text src => csvField 512 src
  | .number n => Text.decimal n
  | .time us => metricsFormatTimestampUs gmtime us 48
  | .fileName src => (src.map flattenForCsv).getD ['-']
  | .body src => (src.map flattenForCsv3).getD ['-']

theorem metricsTexts_eq : metricsTexts gmtime (m.withTexts fileName request response) =
    ((metricsColumns m fileName request response).map (·.2)).map (·.printed gmtime) := rfl

/-- The columns before the texts of the request. -/
def metricsFront (m : MetricsRecord) : List MetricValue :=
  ((metricsColumns m none none none).take 40).map (·.2)

theorem metricsColumns_values : (metricsColumns m fileName request response).map (·.2) =
    metricsFront m ++ [.fileName fileName, .body request, .body response] := rfl

theorem value_shows {value : MetricValue} (plain : ∀ name, value = .fileName (some name) →
    ',' ∉ name ∧ '"' ∉ name) :
    ∃ shown, Encodes (value.printed gmtime) shown ∧ Shows gmtime value shown := by
  cases value with
  | text src => exact csvField_shows gmtime src
  | number n => exact ⟨_, encodes_plain (decimal_plain n), .number n⟩
  | time us => exact ⟨_, encodes_plain (timestamp_plain gmtime us), .time us⟩
  | fileName src =>
    exact fileName_shows gmtime fun name same => plain name (congrArg MetricValue.fileName same)
  | body src => exact body_shows gmtime src

theorem values_show {values : List MetricValue}
    (plain : ∀ value ∈ values, ∀ name, value = .fileName (some name) → ',' ∉ name ∧ '"' ∉ name) :
    ∃ shown, List.Forall₂ Encodes (values.map (·.printed gmtime)) shown ∧
      List.Forall₂ (Shows gmtime) values shown := by
  induction values with
  | nil => exact ⟨[], .nil, .nil⟩
  | cons value values ih =>
    obtain ⟨first, rest⟩ := List.forall_mem_cons.mp plain
    obtain ⟨one, encodes, shows⟩ := @value_shows gmtime value first
    obtain ⟨others, allEncode, allShow⟩ := ih rest
    exact ⟨one :: others, .cons encodes allEncode, .cons shows allShow⟩

theorem metricsFront_plain : ∀ value ∈ metricsFront m, ∀ name,
    value = .fileName (some name) → ',' ∉ name ∧ '"' ∉ name := by
  have others : ∀ value ∈ metricsFront m, ∀ src, value ≠ .fileName src := by
    intro value member src same
    subst same
    simp only [metricsFront, metricsColumns, List.take_succ_cons, List.take_zero, List.map_cons,
      List.map_nil, List.mem_cons, List.not_mem_nil, reduceCtorEq, or_self] at member
  exact fun value member name same => absurd same (others value member (some name))

theorem header_reads : readRecord (metricsCsvHeader ++ ['\n']) =
    some ((metricsColumns m fileName request response).map (·.1.toList), []) := by
  have names : (metricsColumns m fileName request response).map (·.1.toList) =
      (["session_id", "transaction_id", "transaction_name", "audit_id", "consumer_name",
        "client_ip", "host_name", "server_ip", "server_port", "process_id", "thread_id",
        "datasource_name", "connection_id", "pool_id", "operation", "object_name", "sql_hash",
        "cache_key_hash", "start_time_us", "end_time_us", "cache_lookup_us", "level1_parse_us",
        "level2_parse_us", "sql_parse_us", "ldap_bind_us", "crypt_verify_us", "execution_us",
        "total_us", "rows_affected", "output_xml_bytes", "clob_bytes", "lob_bytes",
        "bytes_processed", "cache_hit", "status_code", "error_code", "error_text",
        "connection_wait_us", "connection_create_us", "connection_acquire_us", "input_file_name",
        "input_request", "output_response"].map String.toList) := rfl
  rw [names]
  decide +kernel

/-- A comma or a quote in the file name breaks the line. -/
theorem not_shown {name : CString} (special : ',' ∈ name ∨ '"' ∈ name) :
    ¬LineShows gmtime m (some name) request response := by
  rintro ⟨-, values, read, shows⟩
  obtain ⟨front, encodes, -⟩ := @values_show gmtime _ (@metricsFront_plain m)
  have size : ((metricsFront m).map (·.printed gmtime)).length = front.length := encodes.length_eq
  rw [metricsLine, metricsTexts_eq, metricsColumns_values, List.map_append] at read
  rw [metricsColumns_values] at shows
  have count : ((metricsFront m).map (·.printed gmtime)).length = 40 := rfl
  generalize (metricsFront m).map (·.printed gmtime) = texts at encodes read size count
  have last : [MetricValue.fileName (some name), .body request, .body response].map
      (·.printed gmtime) = [flattenForCsv name, (request.map flattenForCsv3).getD ['-'],
        (response.map flattenForCsv3).getD ['-']] := rfl
  rw [last] at read
  generalize (request.map flattenForCsv3).getD ['-'] = second at read
  generalize (response.map flattenForCsv3).getD ['-'] = third at read
  obtain ⟨fuel, steps⟩ : ∃ fuel, (recordLine (texts ++ [flattenForCsv name, second, third])).length
      + 1 = fuel + 1 + texts.length := by
    have whole := length_recordLine (texts ++ [flattenForCsv name, second, third])
    rw [List.length_append] at whole
    simp only [List.length_cons, List.length_nil] at whole
    obtain ⟨fuel, steps⟩ := Nat.exists_eq_add_of_le whole
    exact ⟨fuel + 2, by omega⟩
  rw [readRecord, steps, readFields_append encodes (List.cons_ne_nil _ _),
    Option.map_eq_some_iff] at read
  obtain ⟨⟨later, rest⟩, read, same⟩ := read
  obtain ⟨rfl, rfl⟩ := Prod.mk.inj same
  -- the fields behind the fixed ones show the three texts
  have three := List.forall₂_drop_append _ _ _ shows
  rw [← size, count] at three
  obtain ⟨value, others, shown, more, rfl⟩ := List.forall₂_cons_left_iff.mp three
  obtain ⟨next, others, -, -, rfl⟩ := List.forall₂_cons_left_iff.mp more
  obtain ⟨behind, field⟩ := readFields_first read
  rw [recordLine_cons _ (List.cons_ne_nil _ _)] at field
  have filled : name ≠ [] := by
    rintro rfl
    rcases special with member | member <;> cases member
  have text : flattenForCsv name = flattenLoop false name := if_neg filled
  cases shown with
  | noFile missing => exact filled missing
  | fileName _ flattened =>
    rw [text, flattened.loop.1] at field
    refine not_read_back (special.imp ?_ ?_) field
    · exact (flattened.mem_iff rfl).mpr
    · exact (flattened.mem_iff rfl).mpr

/-- The line tells the value of every column exactly when the file name holds neither a comma nor
a quote. -/
theorem metrics_line_iff (gmtime : Nat → Option Tm) (m : MetricsRecord)
    (fileName request response : Option CString) :
    LineShows gmtime m fileName request response ↔
      ∀ name, fileName = some name → ',' ∉ name ∧ '"' ∉ name := by
  constructor
  · rintro shown name rfl
    constructor
    · exact fun comma => not_shown (Or.inl comma) shown
    · exact fun quote => not_shown (Or.inr quote) shown
  · intro plain
    refine ⟨header_reads, ?_⟩
    have all : ∀ value ∈ (metricsColumns m fileName request response).map (·.2), ∀ name,
        value = .fileName (some name) → ',' ∉ name ∧ '"' ∉ name := by
      rw [metricsColumns_values]
      refine List.forall_mem_append.mpr ⟨metricsFront_plain, ?_⟩
      refine List.forall_mem_cons.mpr ⟨?_, List.forall_mem_cons.mpr
        ⟨nofun, List.forall_mem_singleton.mpr nofun⟩⟩
      intro name same
      exact plain name (MetricValue.fileName.inj same)
    obtain ⟨values, encodes, shows⟩ := values_show all
    refine ⟨values, ?_, shows⟩
    rw [metricsLine, metricsTexts_eq]
    exact readRecord_line encodes (List.cons_ne_nil _ _)

end Line

/-- The part of a file name behind its comma is read as the request. -/
theorem file_name_shifts_columns :
    ¬LineShows (fun _ => none) metricsInit (some "a,b.xml".toList) none none :=
  not_shown (Or.inl (by decide +kernel))

end OciWrapper.Infra
