import WatchMe.Model.Event
import WatchMe.Process.Linux
import WatchMe.Text.Utf8

/-! # The stat line of a process

The kernel prints the name of a command as it stands, in brackets. The fields after it are found
behind the last closing bracket, but only where the name is UTF-8.
-/
namespace WatchMe
open Text

section Numbers
variable {max : Nat} {n : Int}

def decimal (n : Int) : List Char := (toString n).toList

theorem decimal_ofNat (n : Nat) : decimal n = Nat.toDigits 10 n := by
  simp [decimal,Int.repr]

theorem decimal_neg (h : n < 0) : decimal n = '-' :: Nat.toDigits 10 n.natAbs := by
  obtain ⟨k,rfl⟩ := Int.eq_negSucc_of_lt_zero h
  simp [decimal,Int.repr]

theorem digitsValue_toDigits (n : Nat) : digitsValue (Nat.toDigits 10 n) = n :=
  Nat.ofDigitChars_toDigits (by decide) (by decide)

theorem all_isDigit_toDigits (n : Nat) : (Nat.toDigits 10 n).all Char.isDigit = true :=
  List.all_eq_true.2 fun _ => Nat.isDigit_of_mem_toDigits (by decide) (by decide)

theorem head_toDigits {c : Char} (hc : c.isDigit = false) (n : Nat) :
    (Nat.toDigits 10 n).head? ≠ some c := by
  intro h
  rw [Nat.isDigit_of_mem_toDigits (by decide) (by decide) (List.mem_of_mem_head? h)] at hc
  cases hc

theorem parseUnsigned_decimal {n : Nat} (h : n ≤ max) : parseUnsigned max (decimal n) = some n := by
  rw [decimal_ofNat,parseUnsigned,if_neg (head_toDigits (by decide) n)]
  simp only [digitsValue_toDigits]
  exact if_pos ⟨Nat.toDigits_ne_nil,all_isDigit_toDigits n,h⟩

theorem parseUnsigned_decimal_neg (h : n < 0) : parseUnsigned max (decimal n) = none := by
  simp [decimal_neg h,parseUnsigned]

theorem parseUnsigned_decimal_iff {k : Nat} (h : n ≤ max) :
    parseUnsigned max (decimal n) = some k ↔ n = k := by
  rcases Int.lt_or_le n 0 with hn | hn
  · rw [parseUnsigned_decimal_neg hn]
    simp
    omega
  · obtain ⟨m,rfl⟩ := Int.eq_ofNat_of_zero_le hn
    rw [parseUnsigned_decimal (by omega),Option.some_inj,Int.natCast_inj]

theorem parseSigned_decimal (h : n.natAbs ≤ max) : parseSigned max (decimal n) = some n := by
  rcases Int.lt_or_le n 0 with hn | hn
  · rw [decimal_neg hn,parseSigned]
    simp only [digitsValue_toDigits]
    rw [if_pos ⟨Nat.toDigits_ne_nil,all_isDigit_toDigits _,by omega⟩]
    exact congrArg some (by omega)
  · obtain ⟨m,rfl⟩ := Int.eq_ofNat_of_zero_le hn
    have hunsigned : parseUnsigned max (decimal m) = some m := parseUnsigned_decimal (by omega)
    rw [decimal_ofNat] at hunsigned ⊢
    unfold parseSigned
    split
    · rename_i h
      exact absurd (congrArg List.head? h) (head_toDigits (by decide) m)
    · rw [hunsigned]
      rfl

theorem isDigit_or_sign_of_mem_decimal {c : Char} (h : c ∈ decimal n) :
    c.isDigit = true ∨ c = '-' := by
  rcases Int.lt_or_le n 0 with hn | hn
  · rw [decimal_neg hn,List.mem_cons] at h
    exact h.symm.imp (Nat.isDigit_of_mem_toDigits (by decide) (by decide)) id
  · obtain ⟨m,rfl⟩ := Int.eq_ofNat_of_zero_le hn
    rw [decimal_ofNat] at h
    exact .inl (Nat.isDigit_of_mem_toDigits (by decide) (by decide) h)

end Numbers

def Solid (field : List Char) : Prop :=
  field ≠ [] ∧ ∀ c ∈ field, isAsciiWhitespace c = false ∧ c ≠ ')'

theorem solid_decimal (n : Int) : Solid (decimal n) := by
  refine ⟨?_,fun c hc => ?_⟩
  · rcases Int.lt_or_le n 0 with hn | hn
    · rw [decimal_neg hn]
      simp
    · obtain ⟨m,rfl⟩ := Int.eq_ofNat_of_zero_le hn
      rw [decimal_ofNat]
      exact Nat.toDigits_ne_nil
  · rcases isDigit_or_sign_of_mem_decimal hc with h | rfl
    · refine ⟨?_,fun h' => ?_⟩
      · by_contra hblank
        simp only [isAsciiWhitespace,Bool.not_eq_false,Bool.or_eq_true,beq_iff_eq] at hblank
        rcases hblank with (((rfl | rfl) | rfl) | rfl) | rfl <;> exact absurd h (by decide)
      · subst h'
        exact absurd h (by decide)
    · decide

theorem words_terminated {fields : List (List Char)} (h : ∀ field ∈ fields, Solid field)
    (hne : fields ≠ []) : words ([' '].intercalate fields ++ ['\n']) = fields := by
  have hstep : ∀ (blank : Char) {field : List Char}, Solid field → isAsciiWhitespace blank = true →
      ∀ rest, words (field ++ blank :: rest) = field :: words rest := by
    intro blank field hfield hblank rest
    rw [words,List.splitOnP_append_cons _ _ hblank,
      List.splitOnP_eq_singleton fun c hc => (hfield.2 c hc).1,List.singleton_append,
      List.filter_cons_of_pos (by simpa using hfield.1)]
    rfl
  rcases fields with _ | ⟨field,fields⟩
  · exact absurd rfl hne
  induction fields generalizing field with
  | nil =>
    have := hstep '\n' (h field (by simp)) (by decide) []
    simpa [List.intercalate,words] using this
  | cons next fields ih =>
    rw [List.intercalate_cons_cons,List.append_assoc,List.append_assoc,List.singleton_append,
      hstep ' ' (h field (by simp)) (by decide),
      ih next (fun f hf => h f (List.mem_cons_of_mem _ hf)) (by simp)]

theorem mem_intercalate {c blank : Char} {fields : List (List Char)}
    (h : c ∈ [blank].intercalate fields) : c = blank ∨ ∃ field ∈ fields, c ∈ field := by
  rcases fields with _ | ⟨field,fields⟩
  · simp [List.intercalate] at h
  induction fields generalizing field with
  | nil => exact .inr ⟨field,by simp,by simpa [List.intercalate] using h⟩
  | cons next fields ih =>
    rw [List.intercalate_cons_cons,List.append_assoc,List.singleton_append,List.mem_append,
      List.mem_cons] at h
    rcases h with h | h | h
    · exact .inr ⟨field,by simp,h⟩
    · exact .inl h
    · exact (ih next h).imp id fun ⟨f,hf,hc⟩ => ⟨f,List.mem_cons_of_mem _ hf,hc⟩

theorem afterLast_bracket {text : List Char} (h : ')' ∉ text) (before : List Char) :
    afterLast ") ".toList (before ++ ')' :: ' ' :: text) = some text := by
  have hnone : ∀ text : List Char, ')' ∉ text → afterLast ") ".toList text = none := by
    intro text
    induction text with
    | nil => exact fun _ => rfl
    | cons c text ih =>
      intro h
      rw [List.mem_cons,not_or] at h
      rw [afterLast,ih h.2]
      simp [h.1]
  induction before with
  | nil =>
    rw [List.nil_append,afterLast,hnone _ (by simpa using h)]
    simp
  | cons c before ih => rw [List.cons_append,afterLast,ih]

/-- What the kernel prints of a process. Group and session are -1 for one that is being reaped. -/
structure StatLine where
  pid : Nat
  comm : List UInt8
  state : Char
  parentPid : Nat
  processGroup : Int
  session : Int
  tty : Int
  between : List Int
  startTime : Nat
  rest : List Int
  solid : Solid [state]
  parent_le : parentPid ≤ Linux.u32Max
  group_le : processGroup ≤ Linux.u32Max
  session_le : session ≤ Linux.u32Max
  tty_le : tty.natAbs ≤ Linux.i64Max
  between_length : between.length = 14
  start_le : startTime ≤ Linux.u64Max

namespace StatLine
variable (line : StatLine)

def fields : List (List Char) :=
  [line.state] :: decimal line.parentPid :: decimal line.processGroup :: decimal line.session ::
    decimal line.tty :: line.between.map decimal ++ decimal line.startTime :: line.rest.map decimal

def opening : List Char := decimal line.pid ++ " ".toList
def closing : List Char := ' ' :: [' '].intercalate line.fields ++ ['\n']

/-- The line as it is read below `/proc`. -/
def bytes : List UInt8 :=
  encodeUtf8 line.opening ++ 0x28 :: (line.comm ++ 0x29 :: encodeUtf8 line.closing)

def parsed : Linux.ParsedProcStat :=
  ⟨line.parentPid,line.processGroup.toNat,line.session.toNat,Linux.canonicalTty line.tty,
    line.startTime⟩

/-- The name of the command is UTF-8, the line not too long and the process not being reaped. -/
structure Readable : Prop where
  comm : ∃ text, fromUtf8 line.comm = .ok text
  size : line.bytes.length ≤ Linux.maxProcFileBytes
  group : 0 ≤ line.processGroup
  session : 0 ≤ line.session

theorem fields_solid : ∀ field ∈ line.fields, Solid field := by
  intro field hfield
  simp only [fields,List.cons_append,List.mem_cons,List.mem_append,List.mem_map] at hfield
  rcases hfield with rfl | rfl | rfl | rfl | rfl | ⟨n,-,rfl⟩ | rfl | ⟨n,-,rfl⟩
  · exact line.solid
  all_goals exact solid_decimal _

variable {line}

theorem bytes_eq {text : List Char} (h : fromUtf8 line.comm = .ok text) :
    line.bytes = encodeUtf8 ((line.opening ++ '(' :: text) ++ ')' :: line.closing) := by
  rw [bytes,← encodeUtf8_of_fromUtf8 h]
  simp only [encodeUtf8_append,encodeUtf8_cons,List.append_assoc]
  rfl

theorem comm_of_bytes {text : List Char} (h : fromUtf8 line.bytes = .ok text) :
    ∃ comm, fromUtf8 line.comm = .ok comm := by
  obtain ⟨_,rest,-,-,hrest⟩ := encodeUtf8_split (by decide) (encodeUtf8_of_fromUtf8 h)
  obtain ⟨comm,_,-,hcomm,-⟩ := encodeUtf8_split (by decide) hrest
  exact ⟨comm,hcomm ▸ fromUtf8_encodeUtf8 comm⟩

theorem statFields_eq (text : List Char) :
    Linux.statFields ((line.opening ++ '(' :: text) ++ ')' :: line.closing) = some line.fields := by
  have hbracket : ')' ∉ [' '].intercalate line.fields ++ ['\n'] := by
    intro h
    rcases List.mem_append.1 h with h | h
    · rcases mem_intercalate h with h | ⟨field,hfield,h⟩
      · cases h
      · exact ((line.fields_solid field hfield).2 _ h).2 rfl
    · cases List.mem_singleton.1 h
  rw [Linux.statFields,closing,List.cons_append,afterLast_bracket hbracket,Option.map_some,
    words_terminated line.fields_solid (by simp [fields])]

theorem parseField_ok_iff {α : Type} {pid : Nat} {parse : List Char → Option α} {value : List Char}
    {name : String} {a : α} :
    Linux.parseField pid parse value name = .ok a ↔ parse value = some a := by
  unfold Linux.parseField
  cases parse value <;> simp

theorem field_startTime : line.fields.getD 19 [] = decimal line.startTime := by
  have hlength := line.between_length
  simp [fields,List.getD,hlength]

theorem parse_decoded {text : List Char} (htext : fromUtf8 line.comm = .ok text)
    (hsize : line.bytes.length ≤ Linux.maxProcFileBytes) :
    Linux.parseProcStat line.pid line.bytes = .ok line.parsed ↔
      0 ≤ line.processGroup ∧ 0 ≤ line.session := by
  have hinput : Linux.boundedUtf8 line.pid line.bytes =
      .ok ((line.opening ++ '(' :: text) ++ ')' :: line.closing) := by
    rw [Linux.boundedUtf8,if_neg (by omega),bytes_eq htext,fromUtf8_encodeUtf8]
    rfl
  have hcount : ¬ line.fields.length ≤ 19 := by
    have hlength := line.between_length
    simp only [fields,List.cons_append,List.length_cons,List.length_append,List.length_map]
    omega
  rw [Linux.parseProcStat,bind_ok_iff]
  simp only [hinput,Except.ok.injEq,exists_eq_left',statFields_eq,if_neg hcount,field_startTime,
    bind_ok_iff,parseField_ok_iff]
  constructor
  · rintro ⟨parent,-,group,hgroup,session,hsession,-⟩
    have hgroup : line.processGroup = group := (parseUnsigned_decimal_iff line.group_le).1 hgroup
    have hsession : line.session = session := (parseUnsigned_decimal_iff line.session_le).1 hsession
    omega
  · rintro ⟨hgroup,hsession⟩
    refine ⟨_,parseUnsigned_decimal line.parent_le,line.processGroup.toNat,
      (parseUnsigned_decimal_iff line.group_le).2 (by omega),line.session.toNat,
      (parseUnsigned_decimal_iff line.session_le).2 (by omega),_,parseSigned_decimal line.tty_le,
      _,parseUnsigned_decimal line.start_le,rfl⟩

theorem parseProcStat_iff : Linux.parseProcStat line.pid line.bytes = .ok line.parsed ↔
    line.Readable := by
  constructor
  · intro h
    obtain ⟨input,hinput,-⟩ := bind_ok_iff.1 h
    unfold Linux.boundedUtf8 at hinput
    split_ifs at hinput with hsize
    obtain ⟨text,htext⟩ : ∃ text, fromUtf8 line.bytes = .ok text := by
      cases hb : fromUtf8 line.bytes with
      | error =>
        rw [hb] at hinput
        cases hinput
      | ok text => exact ⟨text,rfl⟩
    obtain ⟨comm,hcomm⟩ := comm_of_bytes htext
    obtain ⟨hgroup,hsession⟩ := (parse_decoded hcomm (by omega)).1 h
    exact ⟨⟨comm,hcomm⟩,by omega,hgroup,hsession⟩
  · rintro ⟨⟨comm,hcomm⟩,hsize,hgroup,hsession⟩
    exact (parse_decoded hcomm hsize).2 ⟨hgroup,hsession⟩

/-- What an inspection finds while the line does not change. -/
structure Shows (line : StatLine) (files : ProcFiles) (uid : Nat) : Prop where
  stat : files.stat = .ok line.bytes
  finalStat : files.finalStat = .ok line.bytes
  status : (do Linux.parseStatusUid line.pid (← Linux.readBounded line.pid files.status)) = .ok uid

variable [Digest]

def record (line : StatLine) (files : ProcFiles) (uid : Nat) : ProcessRecord :=
  ⟨line.pid,line.parentPid,line.startTime,files.exe,Linux.argvDigest line.pid files.cmdline,
    some uid,some line.processGroup.toNat,some line.session.toNat,Linux.canonicalTty line.tty⟩

theorem Readable.readProcess {files : ProcFiles} {uid : Nat} (h : line.Readable)
    (hfiles : line.Shows files uid) :
    Linux.readProcess line.pid files = .ok (line.record files uid) := by
  have hread : Linux.readBounded line.pid (.ok line.bytes) = .ok line.bytes := by
    have := h.size
    rw [Linux.readBounded,if_neg (by rw [List.length_take]; omega)]
  have hparse := parseProcStat_iff.2 h
  obtain ⟨status,hstatus,huid⟩ := bind_ok_iff.1 hfiles.status
  simp only [Linux.readProcess,hfiles.stat,hfiles.finalStat,bind_ok_iff]
  refine ⟨_,hread,_,hparse,status,hstatus,uid,huid,_,hread,_,hparse,?_⟩
  rw [if_neg (by simp)]
  rfl

theorem onTty_append {files : Nat → ProcFiles} {tty : String} {before after : List Nat}
    {all : List ProcessRecord} : Linux.onTty files tty (before ++ after) = .ok all ↔
      ∃ l r, Linux.onTty files tty before = .ok l ∧ Linux.onTty files tty after = .ok r ∧
        all = l ++ r := by
  induction before generalizing all with
  | nil =>
    refine ⟨fun h => ⟨[],all,rfl,h,rfl⟩,?_⟩
    rintro ⟨l,r,hl,hr,rfl⟩
    cases hl
    exact hr
  | cons pid before ih =>
    rw [List.cons_append,Linux.onTty,Linux.onTty]
    cases Linux.readProcess pid (files pid) with
    | ok =>
      simp only [bind_ok_iff,ih]
      constructor
      · rintro ⟨_,⟨l,r,hl,hr,rfl⟩,hall⟩
        cases hall
        exact ⟨_,r,⟨l,hl,rfl⟩,hr,by split_ifs <;> rfl⟩
      · rintro ⟨_,r,⟨l,hl,hall⟩,hr,rfl⟩
        cases hall
        exact ⟨_,⟨l,r,hl,hr,rfl⟩,by split_ifs <;> rfl⟩
    | error error =>
      cases error with
      | disappeared => exact ih
      | _ => exact iff_of_false (by simp) (by simp)

/-- The fields are recovered, and the processes beside it are listed. -/
def Handled (line : StatLine) : Prop :=
  (∀ files uid, line.Shows files uid →
    Linux.readProcess line.pid files = .ok (line.record files uid)) ∧
  ∀ files uid tty before after others, line.Shows (files line.pid) uid →
    Linux.onTty files tty (before ++ after) = .ok others →
    ∃ all, Linux.onTty files tty (before ++ line.pid :: after) = .ok all ∧ ∀ p ∈ others, p ∈ all

theorem stat_line_handled_iff (line : StatLine) : line.Handled ↔ line.Readable := by
  constructor
  · rintro ⟨hrecord,-⟩
    have hfiles : line.Shows ⟨.ok line.bytes,.ok [85,105,100,58,48],none,.error .notFound,
        .ok line.bytes⟩ 0 := ⟨rfl,rfl,rfl⟩
    have h := hrecord _ _ hfiles
    simp only [Linux.readProcess,bind_ok_iff] at h
    obtain ⟨bytes,hbytes,parsed,hparsed,_,-,_,-,_,-,_,-,hend⟩ := h
    obtain rfl : line.bytes = bytes := by
      simp only [Linux.readBounded] at hbytes
      split_ifs at hbytes
      exact Except.ok.inj hbytes
    split_ifs at hend
    have hsame : parsed = line.parsed := by
      obtain ⟨_,_,_,_,_⟩ := parsed
      cases hend
      rfl
    exact parseProcStat_iff.1 (hsame ▸ hparsed)
  · intro h
    refine ⟨fun files uid hfiles => h.readProcess hfiles,?_⟩
    intro files uid tty before after others hfiles hothers
    obtain ⟨l,r,hl,hr,rfl⟩ := onTty_append.1 hothers
    have hnext : Linux.onTty files tty (line.pid :: after) = .ok (if (line.record (files line.pid)
        uid).tty = some tty then line.record (files line.pid) uid :: r else r) := by
      rw [Linux.onTty,h.readProcess hfiles]
      dsimp only
      rw [hr]
      rfl
    refine ⟨_,onTty_append.2 ⟨l,_,hl,hnext,rfl⟩,fun p hp => ?_⟩
    split_ifs
    · simp only [List.mem_append,List.mem_cons] at hp ⊢
      exact hp.imp_right .inr
    · exact hp

namespace Sample

def named (pid : Nat) (comm : List UInt8) : StatLine where
  pid
  comm
  state := 'S'
  parentPid := 1
  processGroup := 11
  session := 11
  tty := 34817
  between := .replicate 14 0
  startTime := 500
  rest := []
  solid := by simp [Solid,isAsciiWhitespace]
  parent_le := by decide
  group_le := by decide
  session_le := by decide
  tty_le := by decide
  between_length := rfl
  start_le := by decide

def shown (line : StatLine) : ProcFiles :=
  ⟨.ok line.bytes,.ok [85,105,100,58,48],none,.error .notFound,.ok line.bytes⟩

@[reducible] def zeroDigest : Digest :=
  ⟨fun _ => .ofList (.replicate 64 '0'),fun _ => [],fun _ => by decide⟩

end Sample

omit [Digest] in
/-- A name that is not UTF-8 hides the other processes of the terminal. -/
theorem stat_line_hides :
    let _ := Sample.zeroDigest
    let files := fun pid => Sample.shown (Sample.named pid (if pid = 11 then [0xff] else [0x61]))
    (Linux.onTty files "dev:136:1" [10]).map (·.map (·.pid)) = .ok [10] ∧
      Linux.onTty files "dev:136:1" [10,11] =
        .error (.malformed 11 "proc field is not UTF-8") := by
  decide

end StatLine

end WatchMe
