import SberWifi.IperfResults
import SberWifi.NumberText

namespace SberWifi.ByteCounts

open JavaString JsonRules DecimalNumbers IperfMachine CJsonPrint JsonPath IperfResults NumberText
open JsonText (Json parse)

section Narrowing

theorem toString_eq_iff (i : Int) (n : Nat) : str (toString i) = str (toString n) ↔ i = n := by
  rcases int_cases i with ⟨m, rfl, h⟩ | ⟨m, hneg, h⟩
  · rw [h]
    refine ⟨fun heq => ?_, fun heq => ?_⟩
    · rw [nat_injective heq]
    · rw [Int.ofNat_inj.1 heq]
  · rw [h]
    refine ⟨fun heq => ?_, fun heq => by omega⟩
    have hminus : (45 : UInt16) ∈ str (toString n) := heq ▸ List.mem_cons_self
    exact absurd (digit_of_mem_nat hminus).1 (by decide)

theorem megabytes_eq_iff (v : Int32) (n : Nat) :
    megabytes v = str (toString (n / 1000000)) ↔ v.toInt.tdiv 1000000 = (n / 1000000 : Nat) := by
  have hdiv : (v / 1000000).toInt = v.toInt.tdiv 1000000 := Int32.toInt_div_of_ne_right v 1000000 (by decide)
  rw [megabytes, toString_eq_iff, hdiv]

/-- The division rounds towards zero. -/
theorem tdiv_bounds (w : Int) : w < 0 ∧ w.tdiv 1000000 ≤ 0 ∨ 0 ≤ w ∧ w.tdiv 1000000 = w / 1000000 := by
  by_cases hw : 0 ≤ w
  · exact .inr ⟨hw, Int.tdiv_eq_ediv_of_nonneg hw⟩
  · have hpos : 0 ≤ (-w).tdiv 1000000 := Int.tdiv_nonneg (by omega) (by decide)
    rw [Int.neg_tdiv] at hpos
    exact .inl ⟨by omega, by omega⟩

/-- The low 32 bits of a number give its megabytes below 2^31 only. -/
theorem megabytes_low_iff (n : Nat) :
    megabytes (Int32.ofInt n) = str (toString (n / 1000000)) ↔ n < 2 ^ 31 := by
  have hsize : Int32.size = 2 ^ 32 := rfl
  rw [megabytes_eq_iff, Int32.toInt_ofInt, hsize]
  constructor
  · intro h
    have hlow : (n : Int).bmod (2 ^ 32) < 2 ^ 31 := Int.bmod_lt (by decide)
    have hmod : (n : Int).bmod (2 ^ 32) % 2 ^ 32 = n % 2 ^ 32 := Int.bmod_emod
    rcases tdiv_bounds ((n : Int).bmod (2 ^ 32)) with ⟨hneg, hquot⟩ | ⟨hneg, hquot⟩ <;> omega
  · intro h
    rw [Int.bmod_eq_of_le (by omega) (by omega), Int.tdiv_eq_ediv_of_nonneg (by omega)]
    rfl

/-- A double is narrowed to the largest number there is. -/
theorem megabytes_capped_ne {n : Nat} (h : 2148000000 ≤ n) :
    megabytes (Int32.ofNat (min n (2 ^ 31 - 1))) ≠ str (toString (n / 1000000)) := by
  have hmin : min n (2 ^ 31 - 1) = 2147483647 := by omega
  have hcap : (Int32.ofNat 2147483647).toInt.tdiv 1000000 = 2147 := by decide
  rw [hmin, Ne, megabytes_eq_iff, hcap]
  omega

end Narrowing

section Printing

variable {Double : Type} {clib : CLib Double} {ofInt64 : Int64 → Double}

/-- What is known of the C library: a double holds the integers up to 2^53, the
format g prints them to its precision, and a decimal that stands for one of them
is read as it. -/
structure HoldsIntegers (clib : CLib Double) (ofInt64 : Int64 → Double) : Prop where
  finite_ofInt64 : ∀ n : Nat, n ≤ 2 ^ 53 → clib.finite (ofInt64 (Int64.ofNat n))
  same_ofInt64 : ∀ m n : Nat, m ≤ 2 ^ 53 → n ≤ 2 ^ 53 →
    (clib.same (ofInt64 (Int64.ofNat m)) (ofInt64 (Int64.ofNat n)) ↔ m = n)
  sprintf15_ofInt64 : ∀ n : Nat, n ≤ 2 ^ 53 →
    clib.sprintf15 (ofInt64 (Int64.ofNat n)) = printed clib.decimalPoint (formatG 15 n)
  sprintf17_ofInt64 : ∀ n : Nat, n ≤ 2 ^ 53 →
    clib.sprintf17 (ofInt64 (Int64.ofNat n)) = printed clib.decimalPoint (formatG 17 n)
  sscanf_exact : ∀ (x : Decimal) (n : Nat), Equals x n → n ≤ 2 ^ 53 →
    clib.sscanf (printed clib.decimalPoint x) = some (ofInt64 (Int64.ofNat n))

/-- How a byte count is printed: by its digits, or, when it is large and ends in
a zero, with an exponent. -/
def PrintsAs (n : Nat) (x : Decimal) : Prop :=
  x = plain n ∨ 10 ^ 15 ≤ n ∧ ∃ m, m * 10 ^ 1 = n ∧ x = scientific m 1

theorem formatG_small (precision : Nat) {n : Nat} (h : n < 10 ^ precision) : formatG precision n = plain n :=
  if_pos h

theorem formatG_large {n : Nat} (hlow : 10 ^ 15 ≤ n) (hhigh : n ≤ 2 ^ 53) :
    ∃ m, formatG 15 n = scientific m 1 ∧ m * 10 ^ 1 ≤ 2 ^ 53 := by
  have hlength : (digits n).length = 16 := by
    have hmost := (length_digits_le (n := n) (k := 16) (by decide)).2 (by omega)
    have hleast := mt (length_digits_le (n := n) (k := 15) (by decide)).1 (by omega)
    omega
  refine ⟨roundHalfEven n 10, ?_, ?_⟩
  · rw [formatG, if_neg (by omega), hlength]
    rfl
  · rw [roundHalfEven]
    split_ifs <;> omega

theorem numberBuffer_ofInt64 (hnumbers : HoldsIntegers clib ofInt64) {n : Nat} (hn : n ≤ 2 ^ 53) :
    ∃ x, PrintsAs n x ∧ numberBuffer clib (ofInt64 (Int64.ofNat n)) = printed clib.decimalPoint x := by
  rw [numberBuffer, hnumbers.finite_ofInt64 n hn, if_neg (by decide), hnumbers.sprintf15_ofInt64 n hn,
    hnumbers.sprintf17_ofInt64 n hn, formatG_small 17 (by omega)]
  by_cases hlarge : 10 ^ 15 ≤ n
  · obtain ⟨m, hformat, hm⟩ := formatG_large hlarge hn
    rw [hformat, hnumbers.sscanf_exact _ _ (scientific_equals m 1) hm, Option.any_some]
    by_cases hexact : m * 10 ^ 1 = n
    · rw [if_pos ((hnumbers.same_ofInt64 _ _ hm hn).2 hexact)]
      exact ⟨_, .inr ⟨hlarge, m, hexact, rfl⟩, rfl⟩
    · rw [if_neg (mt (hnumbers.same_ofInt64 _ _ hm hn).1 hexact)]
      exact ⟨_, .inl rfl, rfl⟩
  · rw [formatG_small 15 (by omega), hnumbers.sscanf_exact _ _ (plain_equals n) hn, Option.any_some,
      if_pos ((hnumbers.same_ofInt64 _ _ hn hn).2 rfl)]
    exact ⟨_, .inl rfl, rfl⟩

theorem length_exponentDigits {k : Nat} (hk : k < 100) : (exponentDigits k).length ≤ 2 := by
  rw [exponentDigits]
  split_ifs
  · exact Nat.le_refl 2
  · exact (length_digits_le (by decide)).2 hk

theorem length_printed_le (decimalPoint : UInt8) (x : Decimal) :
    (printed decimalPoint x).length ≤ x.int.length + x.fraction.length + 2 + (exponentBytes x).length := by
  have hsign : (signBytes x).length ≤ 1 := by
    rw [signBytes]
    split_ifs <;> simp
  have hfraction : (fractionBytes decimalPoint x).length ≤ x.fraction.length + 1 := by
    rw [fractionBytes]
    split_ifs <;> simp
  rw [printed, List.length_append, List.length_append, List.length_append, List.length_map]
  omega

/-- A byte count fits into the number buffer. -/
theorem length_printed {n : Nat} (hn : n ≤ 2 ^ 53) {x : Decimal} (hx : PrintsAs n x) (decimalPoint : UInt8) :
    (printed decimalPoint x).length ≤ 25 := by
  refine (length_printed_le decimalPoint x).trans ?_
  rcases hx with rfl | ⟨-, m, hm, rfl⟩
  · have hlength : (digits n).length ≤ 16 := (length_digits_le (by decide)).2 (by omega)
    have hexponent : (exponentBytes (plain n)).length = 0 := rfl
    have hfraction : (plain n).fraction.length = 0 := rfl
    have hint : (plain n).int.length = (digits n).length := rfl
    omega
  · have hlength : (digits m).length ≤ 16 := (length_digits_le (by decide)).2 (by omega)
    have hdigits : (exponentDigits ((digits m).length - 1 + 1)).length ≤ 2 :=
      length_exponentDigits (by omega)
    have hexponent : (exponentBytes (scientific m 1)).length ≤ 4 := by
      simp only [exponentBytes, scientific, List.length_cons, List.length_map]
      omega
    have hint : (scientific m 1).int.length ≤ 1 := List.length_take_le 1 _
    obtain ⟨k, hk⟩ := dropZeros_append ((digits m).drop 1)
    have hfraction := congrArg List.length hk
    rw [List.length_append, List.length_replicate, List.length_drop] at hfraction
    have hdropped : (scientific m 1).fraction.length = (dropZeros ((digits m).drop 1)).length := rfl
    omega

theorem denoteNumber_ofInt64 (hnumbers : HoldsIntegers clib ofInt64) {n : Nat} (hn : n ≤ 2 ^ 53) :
    ∃ x, PrintsAs n x ∧ denoteNumber clib (ofInt64 (Int64.ofNat n)) = .number x.token := by
  obtain ⟨x, hx, hbuffer⟩ := numberBuffer_ofInt64 hnumbers hn
  have hroom := length_printed hn hx clib.decimalPoint
  refine ⟨x, hx, ?_⟩
  rw [denoteNumber, if_pos (hnumbers.finite_ofInt64 n hn), printNumber, hbuffer, if_neg (by omega),
    Option.getD_some, units_printed clib.decimalPoint_free]

end Printing

section Reading

variable {D : Type} {lib : Libraries D} {parseDouble : JString → D}

theorem intValue_boxInteger (lib : Libraries D) {n : Nat} (hn : n ≤ 2 ^ 53) :
    intValue lib (boxInteger n) = Int32.ofInt n := by
  rw [boxInteger]
  split_ifs
  · rfl
  · exact Int64.toInt32_ofInt
  · omega

/-- The megabytes of a byte count are right up to 2^31. -/
theorem megabytes_token_iff (hreads : Reads lib parseDouble) {n : Nat} (hn : n ≤ 2 ^ 53) {x : Decimal}
    (hx : PrintsAs n x) :
    megabytes (intValue lib (box parseDouble x.token)) = str (toString (n / 1000000)) ↔ n < 2 ^ 31 := by
  rcases hx with rfl | ⟨hlarge, m, rfl, rfl⟩
  · rw [box_plain, intValue_boxInteger lib hn]
    exact megabytes_low_iff n
  · rw [box_exponent parseDouble (by simp [scientific]), intValue,
      hreads.parseDouble_exact (scientific_equals m 1) hn, hreads.toInt_exact _ hn]
    exact iff_of_false (megabytes_capped_ne (by omega)) (by omega)

end Reading

section Reports

variable {Double : Type} {clib : CLib Double} {ofInt64 : Int64 → Double}

structure Reports (clib : CLib Double) (ofInt64 : Int64 → Double) (r : Results Double) (report : Bytes) where
  test : Test Double
  before : List (Option CString × CJSON Double)
  streams : List (Option CString × CJSON Double)
  errors : List CString
  jsonTop_eq : test.jsonTop = topMembers ofInt64 r before streams errors
  before_raw : membersRaw before = false
  streams_raw : membersRaw streams = false
  server_raw : ∀ item ∈ test.jsonServerOutput, hasRaw item = false
  printed : printStatistics (iperfJsonFinish clib test) = some report

theorem membersRaw_addItemToObject (name : CString) {item : Option (CJSON Double)}
    (hitem : ∀ i ∈ item, hasRaw i = false) : membersRaw (addItemToObject name item) = false :=
  membersRaw_toList hitem

theorem membersRaw_congestionMembers (r : Results Double) : membersRaw (congestionMembers r) = false := by
  have hstring (congestion : Option CString) :
      ∀ i ∈ congestion.map (fun s => (.string (some s) : CJSON Double)), hasRaw i = false := by
    intro i hi
    obtain ⟨s, -, rfl⟩ := Option.map_eq_some_iff.1 hi
    rfl
  rw [congestionMembers, membersRaw_append, membersRaw_addItemToObject _ (hstring _),
    membersRaw_addItemToObject _ (hstring _)]
  rfl

theorem membersRaw_iperfPrintResults (r : Results Double) : membersRaw (iperfPrintResults ofInt64 r) = false := by
  have hsender : hasRaw (senderMember r).2 = false := by
    rw [senderMember]
    split_ifs <;> rfl
  have hsent : membersRaw (sentMembers ofInt64 r) = false := by
    rw [sentMembers, membersRaw_append, membersRaw_append]
    split_ifs <;> simp [summary, retransmitsMember, membersRaw, hasRaw, hsender]
  have hreceived : membersRaw (receivedMembers ofInt64 r) = false := by
    simp [receivedMembers, summary, membersRaw, hasRaw, hsender]
  rw [iperfPrintResults_eq]
  simp [membersRaw, hasRaw, hsent, hreceived, membersRaw_congestionMembers, cpuMembers]

theorem membersRaw_errorMembers (errors : List CString) :
    membersRaw (errorMembers errors : List (Option CString × CJSON Double)) = false := by
  induction errors with
  | nil => rfl
  | cons s errors ih => exact ih

variable {r : Results Double} {report : Bytes}

/-- The tree that the text of a report is read as. -/
theorem Reports.parses (h : Reports clib ofInt64 r report) : ∃ tree, parse (units report) = some tree ∧
    ∀ path, find (str "end" :: path) tree =
      find path (denote clib (.object (h.streams ++ iperfPrintResults ofInt64 r))) := by
  have hraw : membersRaw h.test.jsonTop = false := by
    rw [h.jsonTop_eq, topMembers, membersRaw_append, h.before_raw, membersRaw, hasRaw, membersRaw_append,
      h.streams_raw, membersRaw_iperfPrintResults, membersRaw_errorMembers]
    rfl
  exact ⟨_, finished_report clib hraw h.server_raw h.printed, find_end ofInt64 r clib _ _ _ h.jsonTop_eq⟩

variable {D : Type} {lib : Libraries D} {parseDouble : JString → D} (hreads : Reads lib parseDouble)
  (h : Reports clib ofInt64 r report)
include hreads h

theorem read_found {path : List JString} {v : Json}
    (hfind : find path (denote clib (.object (h.streams ++ iperfPrintResults ofInt64 r))) = some v)
    (hplain : (str "end" :: path).all plainKey) :
    lib.read (units report) (pathText (str "end" :: path)) = some (boxed parseDouble v) := by
  obtain ⟨tree, hparse, htree⟩ := h.parses
  exact hreads.read_found hparse (List.cons_ne_nil _ _) hplain ((htree path).trans hfind)

theorem read_sent {key : String} (hplain : plainKey (str key)) {v : Json}
    (hchild : child (str key) (denote clib (.object (sentMembers ofInt64 r))) = some v) :
    lib.read (units report) (pathText [str "end", str "sum_sent", str key]) = some (boxed parseDouble v) := by
  apply read_found hreads h
  · rw [find, child_sumSent, Option.bind_some, find, hchild]
    rfl
  · rw [List.all_cons, List.all_cons, List.all_cons, hplain]
    decide

theorem read_received {key : String} (hplain : plainKey (str key)) {v : Json}
    (hchild : child (str key) (denote clib (.object (receivedMembers ofInt64 r))) = some v) :
    lib.read (units report) (pathText [str "end", str "sum_received", str key]) = some (boxed parseDouble v) := by
  apply read_found hreads h
  · rw [find, child_sumReceived, Option.bind_some, find, hchild]
    rfl
  · rw [List.all_cons, List.all_cons, List.all_cons, hplain]
    decide

theorem read_cpu : lib.read (units report) (str "$.end.cpu_utilization_percent.host_total") =
    some (boxed parseDouble (denoteNumber clib r.cpuUtil.1)) := by
  have hpath : pathText [str "end", str "cpu_utilization_percent", str "host_total"] =
      str "$.end.cpu_utilization_percent.host_total" := by decide
  rw [← hpath]
  apply read_found hreads h
  · rw [find, child_cpu, Option.bind_some, find, child_hostTotal]
    rfl
  · decide

end Reports

section Screen

variable {D : Type} (lib : Libraries D)

def sentText (secondsTest megabytes cpuUtilTest : JString) : JString :=
  str "Время тестирования " ++ secondsTest ++ str " сек, \n" ++
    str "Отправлено МБ: " ++ megabytes ++ str " \n" ++
    str "Нагрузка на процессор: " ++ cpuUtilTest ++ str "% \n"

def receivedText (megabytes cpuUtilTest : JString) : JString :=
  str "Принято МБ: " ++ megabytes ++ str " \n" ++
    str "Нагрузка на процессор: " ++ cpuUtilTest ++ str "% \n"

def textOf (count : Int32) (report : JString) (n : Nat) : Option JString :=
  let megabytes := str (toString (n / 1000000))
  if count = 0 then do
    let secondsTest ← readDouble lib report "$.end.sum_sent.seconds"
    let cpuUtilTest ← readDouble lib report "$.end.cpu_utilization_percent.host_total"
    some (sentText (lib.doubleToString secondsTest) megabytes (lib.doubleToString cpuUtilTest))
  else do
    let cpuUtilTest ← readDouble lib report "$.end.cpu_utilization_percent.host_total"
    some (receivedText megabytes (lib.doubleToString cpuUtilTest))

def Formats (f : IperfFragment) (report : JString) (n : Nat) : Prop :=
  (reportCallback lib f (some report)).count = f.count + 1 ∧
    ∃ result ∈ textOf lib f.count report n, (reportCallback lib f (some report)).reports = f.reports ++ [result]

theorem sentText_injective {secondsTest mb mb' cpuUtilTest : JString} :
    sentText secondsTest mb cpuUtilTest = sentText secondsTest mb' cpuUtilTest ↔ mb = mb' := by
  simp [sentText]

theorem receivedText_injective {mb mb' cpuUtilTest : JString} :
    receivedText mb cpuUtilTest = receivedText mb' cpuUtilTest ↔ mb = mb' := by
  simp [receivedText]

/-- A report that is not accepted leaves the reports as they were. -/
theorem not_formats {f : IperfFragment} {report : JString} (hnone : format lib f.count report = none) (n : Nat) :
    ¬ Formats lib f report n := by
  rintro ⟨-, result, -, hreports⟩
  rw [reportCallback, hnone] at hreports
  simpa using congrArg List.length hreports

theorem formats_iff_text {f : IperfFragment} {report text result : JString} {n : Nat}
    (htext : format lib f.count report = some text) (hresult : textOf lib f.count report n = some result) :
    Formats lib f report n ↔ text = result := by
  rw [Formats, reportCallback, htext, hresult]
  simp

variable {lib}

theorem formats_sent {f : IperfFragment} (hcount : f.count = 0) {report : JString} {secondsTest : D}
    {bytesTest : Int32} {speedTest cpuUtilTest : D}
    (hseconds : readDouble lib report "$.end.sum_sent.seconds" = some secondsTest)
    (hbytes : readInt lib report "$.end.sum_sent.bytes" = some bytesTest)
    (hspeed : readDouble lib report "$.end.sum_sent.bits_per_second" = some speedTest)
    (hcpu : readDouble lib report "$.end.cpu_utilization_percent.host_total" = some cpuUtilTest) (n : Nat) :
    Formats lib f report n ↔ megabytes bytesTest = str (toString (n / 1000000)) := by
  have htext : format lib f.count report = some (sentText (lib.doubleToString secondsTest)
      (megabytes bytesTest) (lib.doubleToString cpuUtilTest)) := by
    rw [format, if_pos hcount, formatSent, hseconds, hbytes, hspeed, hcpu]
    rfl
  have hresult : textOf lib f.count report n = some (sentText (lib.doubleToString secondsTest)
      (str (toString (n / 1000000))) (lib.doubleToString cpuUtilTest)) := by
    rw [textOf, if_pos hcount, hseconds, hcpu]
    rfl
  rw [formats_iff_text lib htext hresult, sentText_injective]

theorem formats_received {f : IperfFragment} (hcount : f.count ≠ 0) {report : JString} {bytesTest : Int32}
    {speedTest cpuUtilTest : D}
    (hbytes : readInt lib report "$.end.sum_received.bytes" = some bytesTest)
    (hspeed : readDouble lib report "$.end.sum_received.bits_per_second" = some speedTest)
    (hcpu : readDouble lib report "$.end.cpu_utilization_percent.host_total" = some cpuUtilTest) (n : Nat) :
    Formats lib f report n ↔ megabytes bytesTest = str (toString (n / 1000000)) := by
  have htext : format lib f.count report = some (receivedText (megabytes bytesTest)
      (lib.doubleToString cpuUtilTest)) := by
    rw [format, if_neg hcount, formatReceived, hbytes, hspeed, hcpu]
    rfl
  have hresult : textOf lib f.count report n = some (receivedText (str (toString (n / 1000000)))
      (lib.doubleToString cpuUtilTest)) := by
    rw [textOf, if_neg hcount, hcpu]
    rfl
  rw [formats_iff_text lib htext hresult, receivedText_injective]

theorem reads_of_formats {f : IperfFragment} {report : JString} {n : Nat} (h : Formats lib f report n) :
    (∃ v, readDouble lib report "$.end.cpu_utilization_percent.host_total" = some v) ∧
      if f.count = 0 then
        (∃ v, readDouble lib report "$.end.sum_sent.seconds" = some v) ∧
          ∃ v, readDouble lib report "$.end.sum_sent.bits_per_second" = some v
      else ∃ v, readDouble lib report "$.end.sum_received.bits_per_second" = some v := by
  cases htext : format lib f.count report with
  | none => exact absurd h (not_formats lib htext n)
  | some text =>
      rw [format] at htext
      split_ifs at htext ⊢
      · obtain ⟨secondsTest, hseconds, htext⟩ := Option.bind_eq_some_iff.1 htext
        obtain ⟨bytesTest, -, htext⟩ := Option.bind_eq_some_iff.1 htext
        obtain ⟨speedTest, hspeed, htext⟩ := Option.bind_eq_some_iff.1 htext
        obtain ⟨cpuUtilTest, hcpu, -⟩ := Option.bind_eq_some_iff.1 htext
        exact ⟨⟨_, hcpu⟩, ⟨_, hseconds⟩, _, hspeed⟩
      · obtain ⟨bytesTest, -, htext⟩ := Option.bind_eq_some_iff.1 htext
        obtain ⟨speedTest, hspeed, htext⟩ := Option.bind_eq_some_iff.1 htext
        obtain ⟨cpuUtilTest, hcpu, -⟩ := Option.bind_eq_some_iff.1 htext
        exact ⟨⟨_, hcpu⟩, _, hspeed⟩

end Screen

section Settled

variable {Double D : Type} {clib : CLib Double} {ofInt64 : Int64 → Double} {lib : Libraries D}
  {parseDouble : JString → D} {r : Results Double} {report : Bytes}

def total (count : Int32) (r : Results Double) : UInt64 := if count = 0 then r.totalSent else r.totalReceived

def ReadsNumbers (clib : CLib Double) (count : Int32) (r : Results Double) : Prop :=
  clib.finite r.cpuUtil.1 ∧
    if count = 0 then clib.finite r.senderTime ∧ clib.finite r.sentBandwidth
    else clib.finite r.receivedBandwidth

instance (clib : CLib Double) (count : Int32) (r : Results Double) : Decidable (ReadsNumbers clib count r) :=
  inferInstanceAs (Decidable (_ ∧ if count = 0 then _ ∧ _ else _))

theorem readDouble_finite {d : Double} (hd : clib.finite d) {report : JString} {path : String}
    (hread : lib.read report (str path) = some (boxed parseDouble (denoteNumber clib d))) :
    ∃ v, readDouble lib report path = some v := by
  rw [denoteNumber, if_pos hd] at hread
  exact ⟨_, by rw [readDouble, hread]; rfl⟩

theorem finite_of_readDouble {d : Double} {report : JString} {path : String}
    (hread : lib.read report (str path) = some (boxed parseDouble (denoteNumber clib d)))
    (h : ∃ v, readDouble lib report path = some v) : clib.finite d := by
  by_contra hd
  obtain ⟨v, hv⟩ := h
  rw [denoteNumber, if_neg hd] at hread
  rw [readDouble, hread] at hv
  cases hv

theorem readInt_token {token report : JString} {path : String}
    (hread : lib.read report (str path) = some (boxed parseDouble (.number token))) :
    readInt lib report path = some (intValue lib (box parseDouble token)) := by
  rw [readInt, hread]
  rfl

theorem toInt64_eq (total : UInt64) : total.toInt64 = Int64.ofNat total.toNat := by
  rw [← Int64.toBitVec_inj]
  simp

section Branches

variable (hnumbers : HoldsIntegers clib ofInt64) (hreads : Reads lib parseDouble)
  (h : Reports clib ofInt64 r report)
include hnumbers hreads h

theorem formats_sent_iff {f : IperfFragment} (hcount : f.count = 0) (hn : r.totalSent.toNat ≤ 2 ^ 53) :
    Formats lib f (units report) r.totalSent.toNat ↔
      r.totalSent.toNat < 2 ^ 31 ∧ clib.finite r.cpuUtil.1 ∧ clib.finite r.senderTime ∧
        clib.finite r.sentBandwidth := by
  obtain ⟨x, hx, htoken⟩ := denoteNumber_ofInt64 hnumbers hn
  have hrest {key : JString} (hsender : units (bytes "sender") ≠ key)
      (hretransmits : units (bytes "retransmits") ≠ key) := names_retransmits ofInt64 r hsender hretransmits
  have hseconds : lib.read (units report) (str "$.end.sum_sent.seconds") = _ :=
    read_sent hreads h (by decide) (child_seconds ofInt64 clib r.startTime r.senderTime r.totalSent
      r.sentBandwidth (hrest (by decide) (by decide)))
  have hbytes : lib.read (units report) (str "$.end.sum_sent.bytes") = _ :=
    read_sent hreads h (by decide) (child_bytes ofInt64 clib r.startTime r.senderTime r.totalSent
      r.sentBandwidth (hrest (by decide) (by decide)))
  have hspeed : lib.read (units report) (str "$.end.sum_sent.bits_per_second") = _ :=
    read_sent hreads h (by decide) (child_bitsPerSecond ofInt64 clib r.startTime r.senderTime r.totalSent
      r.sentBandwidth (hrest (by decide) (by decide)))
  have hcpu := read_cpu hreads h
  rw [toInt64_eq, htoken] at hbytes
  constructor
  · intro hformats
    obtain ⟨⟨_, hc⟩, hothers⟩ := reads_of_formats hformats
    rw [if_pos hcount] at hothers
    obtain ⟨⟨_, hs⟩, _, hv⟩ := hothers
    rw [formats_sent hcount hs (readInt_token hbytes) hv hc, megabytes_token_iff hreads hn hx] at hformats
    exact ⟨hformats, finite_of_readDouble hcpu ⟨_, hc⟩, finite_of_readDouble hseconds ⟨_, hs⟩,
      finite_of_readDouble hspeed ⟨_, hv⟩⟩
  · rintro ⟨hlow, hc, hs, hv⟩
    obtain ⟨_, hc⟩ := readDouble_finite hc hcpu
    obtain ⟨_, hs⟩ := readDouble_finite hs hseconds
    obtain ⟨_, hv⟩ := readDouble_finite hv hspeed
    rw [formats_sent hcount hs (readInt_token hbytes) hv hc, megabytes_token_iff hreads hn hx]
    exact hlow

theorem formats_received_iff {f : IperfFragment} (hcount : f.count ≠ 0) (hn : r.totalReceived.toNat ≤ 2 ^ 53) :
    Formats lib f (units report) r.totalReceived.toNat ↔
      r.totalReceived.toNat < 2 ^ 31 ∧ clib.finite r.cpuUtil.1 ∧ clib.finite r.receivedBandwidth := by
  obtain ⟨x, hx, htoken⟩ := denoteNumber_ofInt64 hnumbers hn
  have hbytes : lib.read (units report) (str "$.end.sum_received.bytes") = _ :=
    read_received hreads h (by decide) (child_bytes ofInt64 clib r.startTime r.receiverTime r.totalReceived
      r.receivedBandwidth (names_sender r (by decide)))
  have hspeed : lib.read (units report) (str "$.end.sum_received.bits_per_second") = _ :=
    read_received hreads h (by decide) (child_bitsPerSecond ofInt64 clib r.startTime r.receiverTime
      r.totalReceived r.receivedBandwidth (names_sender r (by decide)))
  have hcpu := read_cpu hreads h
  rw [toInt64_eq, htoken] at hbytes
  constructor
  · intro hformats
    obtain ⟨⟨_, hc⟩, hother⟩ := reads_of_formats hformats
    rw [if_neg hcount] at hother
    obtain ⟨_, hv⟩ := hother
    rw [formats_received hcount (readInt_token hbytes) hv hc, megabytes_token_iff hreads hn hx] at hformats
    exact ⟨hformats, finite_of_readDouble hcpu ⟨_, hc⟩, finite_of_readDouble hspeed ⟨_, hv⟩⟩
  · rintro ⟨hlow, hc, hv⟩
    obtain ⟨_, hc⟩ := readDouble_finite hc hcpu
    obtain ⟨_, hv⟩ := readDouble_finite hv hspeed
    rw [formats_received hcount (readInt_token hbytes) hv hc, megabytes_token_iff hreads hn hx]
    exact hlow

/-- A byte count comes to the screen below 2^31, if the numbers beside it are
numbers. -/
theorem formats_iff (f : IperfFragment) (hn : (total f.count r).toNat ≤ 2 ^ 53) :
    Formats lib f (units report) (total f.count r).toNat ↔
      (total f.count r).toNat < 2 ^ 31 ∧ ReadsNumbers clib f.count r := by
  rw [ReadsNumbers]
  by_cases hcount : f.count = 0
  · rw [total, if_pos hcount] at hn ⊢
    rw [if_pos hcount]
    exact formats_sent_iff hnumbers hreads h hcount hn
  · rw [total, if_neg hcount] at hn ⊢
    rw [if_neg hcount]
    exact formats_received_iff hnumbers hreads h hcount hn

end Branches

end Settled

theorem point_free : (46 : UInt8) ∉ bytes "+-0123456789enul" := by
  decide

theorem printed_natural {d : Nat} (precision : Nat) (_ : (true : Bool)) :
    ∃ x, printed 46 (formatG precision d) = printed 46 x := ⟨_, rfl⟩

def naturals : CLib Nat where
  finite _ := true
  same m n := Nat.beq m n
  decimalPoint := 46
  sprintf15 n := printed 46 (formatG 15 n)
  sprintf17 n := printed 46 (formatG 17 n)
  sscanf s := some (wholePart (units s))
  decimalPoint_free := point_free
  sprintf15_finite _ := printed_natural 15
  sprintf17_finite _ := printed_natural 17

def naturalOf (v : Int64) : Nat := v.toInt.toNat

def naturalPhone : Libraries Nat where
  read := readNaturals
  ofInt v := v.toNat
  toInt n := Int32.ofNat (min n (2 ^ 31 - 1))
  doubleToString n := str (toString n) ++ str ".0"
  randomUUID n := str (toString n)

theorem naturalOf_ofNat {n : Nat} (hn : n ≤ 2 ^ 53) : naturalOf (Int64.ofNat n) = n := by
  have hsize : Int64.size = 2 ^ 64 := rfl
  rw [naturalOf, Int64.toInt_ofNat', hsize, Int.bmod_eq_of_le (by omega) (by omega), Int.toNat_natCast]

theorem units_printed_point (x : Decimal) : units (printed 46 x) = x.token := by
  have hpoint (s : Bytes) : replacePoint 46 s = s := by
    rw [replacePoint]
    exact (List.map_congr_left fun c _ => ite_eq_right_iff.2 Eq.symm).trans (List.map_id s)
  rw [← units_printed point_free, hpoint]

theorem naturals_holdIntegers : HoldsIntegers naturals naturalOf where
  finite_ofInt64 _ _ := rfl
  same_ofInt64 m n hm hn := by
    rw [naturalOf_ofNat hm, naturalOf_ofNat hn]
    exact iff_of_eq Nat.beq_eq
  sprintf15_ofInt64 n hn := by
    rw [naturalOf_ofNat hn]
    rfl
  sprintf17_ofInt64 n hn := by
    rw [naturalOf_ofNat hn]
    rfl
  sscanf_exact x n hx hn := by
    rw [naturalOf_ofNat hn, ← wholePart_token hx, ← units_printed_point]
    rfl

theorem naturalPhone_reads : Reads naturalPhone wholePart where
  read_found := by
    intro report tree v path hparse hpath hplain hfind
    change readNaturals report (pathText path) = _
    rw [readNaturals, hparse, keys_pathText hpath hplain, Option.bind_eq_bind, Option.bind_some, hfind]
    rfl
  parseDouble_exact hx _ := wholePart_token hx
  toInt_exact _ _ := rfl

def sampleResults (total : UInt64) : Results Nat where
  startTime := 0
  senderTime := 5
  receiverTime := 5
  totalSent := total
  totalReceived := total
  sentBandwidth := 1600000
  receivedBandwidth := 1600000
  totalRetransmits := 0
  senderHasRetransmits := 0
  streamMustBeSender := 1
  cpuUtil := (12, 7, 5)
  remoteCpuUtil := (3, 2, 1)
  congestionUsed := none
  remoteCongestionUsed := none

def sampleTest (total : UInt64) : CJsonPrint.Test Nat where
  title := none
  extraData := none
  jsonServerOutput := none
  serverOutputText := none
  jsonTop := topMembers naturalOf (sampleResults total) [] [] []

def sampleText (total : UInt64) : Bytes :=
  (printStatistics (iperfJsonFinish naturals (sampleTest total))).getD []

def samplePrints (total : UInt64) : Bool :=
  (cJSON_Print naturals (.object [(some endName, .object
    [(some sumSentName, .object (sentMembers naturalOf (sampleResults total))),
      (some sumReceivedName, .object (receivedMembers naturalOf (sampleResults total))),
      (some cpuName, .object (cpuMembers (sampleResults total)))])])).isSome

theorem sampleText_printed {total : UInt64} (hprints : samplePrints total) :
    printStatistics (iperfJsonFinish naturals (sampleTest total)) = some (sampleText total) := by
  have hmembers : iperfPrintResults naturalOf (sampleResults total) = _ := iperfPrintResults_eq naturalOf _
  have hsome : (iperfJsonFinish naturals (sampleTest total)).isSome := by
    rw [iperfJsonFinish, sampleTest, topMembers, hmembers]
    exact hprints
  obtain ⟨output, houtput⟩ := Option.isSome_iff_exists.1 hsome
  rw [sampleText, houtput]
  rfl

def sampleReports {total : UInt64} (hprints : samplePrints total) :
    Reports naturals naturalOf (sampleResults total) (sampleText total) where
  test := sampleTest total
  before := []
  streams := []
  errors := []
  jsonTop_eq := rfl
  before_raw := rfl
  streams_raw := rfl
  server_raw _ h := absurd h (Option.not_mem_none _)
  printed := sampleText_printed hprints

theorem samplePrints_five : samplePrints 5000000 := by decide +kernel

theorem samplePrints_limit : samplePrints 2147483648 := by decide +kernel

theorem formats_iff_five :
    let report := units (sampleText 5000000)
    Formats naturalPhone {} report 5000000 ∧ Formats naturalPhone { count := 1 } report 5000000 :=
  ⟨(formats_iff naturals_holdIntegers naturalPhone_reads (sampleReports samplePrints_five) {} (by decide)).2
      (by decide),
    (formats_iff naturals_holdIntegers naturalPhone_reads (sampleReports samplePrints_five) { count := 1 }
      (by decide)).2 (by decide)⟩

/-- Two gigabytes are more than an Int holds. -/
theorem not_formats_limit : ¬ ∀ (total : UInt64) (report : Bytes),
    Nonempty (Reports naturals naturalOf (sampleResults total) report) → total.toNat ≤ 2 ^ 53 →
      Formats naturalPhone {} (units report) total.toNat := by
  intro h
  have hreports := sampleReports samplePrints_limit
  have hformats := h 2147483648 _ ⟨hreports⟩ (by decide)
  have hlow := (formats_sent_iff naturals_holdIntegers naturalPhone_reads hreports rfl (by decide)).1 hformats
  exact absurd hlow.1 (by decide)

end SberWifi.ByteCounts
