import DataPipe.Foundation.BigEndian
import DataPipe.Foundation.Duration
import DataPipe.Foundation.Loop
import DataPipe.Foundation.Splitting

/-!
# Frames of a byte stream

`engine/nodes/framing/framing.go`: `Run` collects what it polls in a buffer and
hands out every complete frame.  A turn is one pass of its outer loop.  What has
been received and which frames the callback took is recorded beside the buffer.
-/

set_option linter.dupNamespace false

namespace DataPipe.Nodes.Framing

open DataPipe.Foundation

inductive Mode where
  | delimiter
  | fixedLength
  | lengthPrefix
  | timeout
  | other (name : String)
  deriving DecidableEq, Repr

structure Config where
  mode : Mode
  delimiter : List UInt8
  length : Int
  lengthPrefixBytes : Int
  littleEndian : Bool
  timeoutMs : Int
  maxFrameBytes : Int
  deriving DecidableEq, Repr

inductive ConfigError where
  | delimiterRequired
  | lengthNotPositive
  | lengthPrefixBytes (n : Int)
  | timeoutNotPositive
  | mode (name : String)
  deriving DecidableEq, Repr

namespace Config

def validate (cfg : Config) : Except ConfigError Unit :=
  match cfg.mode with
  | .delimiter => if cfg.delimiter = [] then .error .delimiterRequired else .ok ()
  | .fixedLength => if cfg.length ≤ 0 then .error .lengthNotPositive else .ok ()
  | .lengthPrefix =>
    if cfg.lengthPrefixBytes = 1 ∨ cfg.lengthPrefixBytes = 2 ∨ cfg.lengthPrefixBytes = 4 then
      .ok ()
    else .error (.lengthPrefixBytes cfg.lengthPrefixBytes)
  | .timeout => if cfg.timeoutMs ≤ 0 then .error .timeoutNotPositive else .ok ()
  | .other name => .error (.mode name)

def defaultMaxFrameBytes : Int := 1048576

def maxFrame (cfg : Config) : Int :=
  if cfg.maxFrameBytes ≤ 0 then defaultMaxFrameBytes else cfg.maxFrameBytes

end Config

/-- `strings.ReplaceAll` of a backslash and a letter by one byte. -/
def replaceEscape (letter byte : UInt8) : List UInt8 → List UInt8
  | [] => []
  | [b] => [b]
  | b0 :: b1 :: rest =>
    if b0 = 0x5C ∧ b1 = letter then byte :: replaceEscape letter byte rest
    else b0 :: replaceEscape letter byte (b1 :: rest)

def unescapeDelimiter (s : List UInt8) : List UInt8 :=
  replaceEscape 0x74 0x09 (replaceEscape 0x72 0x0D (replaceEscape 0x6E 0x0A s))

/-- `bytes.Index`. -/
def index (sep : List UInt8) : List UInt8 → Option Nat
  | [] => if sep = [] then some 0 else none
  | b :: bytes =>
    if sep <+: b :: bytes then some 0
    else (index sep bytes).map (· + 1)

def prefixLength (littleEndian : Bool) (n : Nat) (buf : List UInt8) : Nat :=
  if n = 1 ∨ n = 2 ∨ n = 4 then
    ofBigEndian (if littleEndian then (buf.take n).reverse else buf.take n)
  else 0

def extract (cfg : Config) (delim buf : List UInt8) : Option (List UInt8 × List UInt8) :=
  match cfg.mode with
  | .delimiter =>
    match index delim buf with
    | none => none
    | some idx => some (buf.take idx, buf.drop (idx + delim.length))
  | .fixedLength =>
    if buf.length < cfg.length then none
    else some (buf.take cfg.length.toNat, buf.drop cfg.length.toNat)
  | .lengthPrefix =>
    if buf.length < cfg.lengthPrefixBytes then none
    else
      let n := cfg.lengthPrefixBytes.toNat
      let length := prefixLength cfg.littleEndian n buf
      if buf.length < n + length then none
      else some ((buf.drop n).take length, buf.drop (n + length))
  | .timeout | .other _ => none

structure Progress where
  buf : List UInt8
  frames : List (List UInt8)
  received : List UInt8
  lastData : Int
  deriving DecidableEq, Repr

inductive Ending where
  | cancelled
  | poll (text : String)
  | size (length : Nat) (limit : Int)
  | frame (text : String)
  deriving DecidableEq, Repr

/-- One call of `poll`, which fills at most the 4096 bytes of the chunk, and the clock when it
has returned data and when the idle time is checked. -/
structure Turn where
  cancelled : Bool
  poll : Except String { bytes : List UInt8 // bytes.length ≤ 4096 }
  readAt : Int
  checkedAt : Int

def Turn.bytes (t : Turn) : List UInt8 :=
  match t.poll with
  | .ok chunk => chunk.val
  | .error _ => []

abbrev OnFrame := List (List UInt8) → List UInt8 → Option String

def extractPass (cfg : Config) (delim : List UInt8) (onFrame : OnFrame) (p : Progress) :
    Progress ⊕ (Progress × Option Ending) :=
  match extract cfg delim p.buf with
  | none => .inr (p, none)
  | some (frame, rest) =>
    match onFrame p.frames frame with
    | some text => .inr (p, some (.frame text))
    | none => .inl { p with buf := rest, frames := p.frames ++ [frame] }

def interrupts : Option Ending → Bool
  | some (.size _ _) | some (.frame _) => true
  | none | some .cancelled | some (.poll _) => false

def flushIdle (cfg : Config) (onFrame : OnFrame) (checkedAt : Int) (p : Progress) :
    Progress × Option Ending :=
  if cfg.mode = .timeout ∧ p.buf ≠ [] ∧ milliseconds cfg.timeoutMs ≤ checkedAt - p.lastData then
    match onFrame p.frames p.buf with
    | some text => (p, some (.frame text))
    | none => ({ p with buf := [], frames := p.frames ++ [p.buf] }, none)
  else (p, none)

def Progress.receive (p : Progress) (chunk : List UInt8) (readAt : Int) : Progress :=
  if chunk = [] then p
  else
    { p with
      buf := p.buf ++ chunk
      received := p.received ++ chunk
      lastData := readAt }

def takeTurn (cfg : Config) (onFrame : OnFrame) (p : Progress) (t : Turn) :
    Option (Progress × Option Ending) :=
  if t.cancelled then some (p, some .cancelled)
  else
    match t.poll with
    | .error text => some (p, some (.poll text))
    | .ok chunk =>
      let p := p.receive chunk.val t.readAt
      if chunk.val ≠ [] ∧ cfg.maxFrame < p.buf.length then
        some (p, some (.size p.buf.length cfg.maxFrame))
      else
        match iterate (extractPass cfg (unescapeDelimiter cfg.delimiter) onFrame)
            (p.buf.length + 1) p with
        | none => none
        | some (p, some ending) => some (p, some ending)
        | some (p, none) => some (flushIdle cfg onFrame t.checkedAt p)

def turns (cfg : Config) (onFrame : OnFrame) :
    Progress → List Turn → Option (Progress × Option Ending)
  | p, [] => some (p, none)
  | p, t :: ts =>
    match takeTurn cfg onFrame p t with
    | none => none
    | some (p, some ending) => some (p, some ending)
    | some (p, none) => turns cfg onFrame p ts

/-- `Run` after the given turns: how it has ended, if it has. -/
def run (cfg : Config) (onFrame : OnFrame) (startedAt : Int) (ts : List Turn) :
    Option (Except ConfigError (Progress × Option Ending)) :=
  match cfg.validate with
  | .error e => some (.error e)
  | .ok () => (turns cfg onFrame ⟨[], [], [], startedAt⟩ ts).map .ok

/-- The delimiter that follows the frame is the first one. -/
def Leads (sep : List UInt8) : List UInt8 → Prop
  | [] => True
  | b :: frame => ¬ sep <+: b :: (frame ++ sep) ∧ Leads sep frame

variable {buf sep : List UInt8}

theorem index_eq_some {i : Nat} :
    index sep buf = some i ↔
      ∃ frame rest, buf = frame ++ (sep ++ rest) ∧ frame.length = i ∧ Leads sep frame := by
  induction buf generalizing i with
  | nil => by_cases hsep : sep = [] <;> simp [index, Leads]
  | cons b bytes ih =>
    rw [index]
    split
    next hhere =>
      constructor
      · rintro ⟨⟩
        obtain ⟨rest, hrest⟩ := hhere
        exact ⟨[], rest, hrest.symm, rfl, trivial⟩
      · rintro ⟨frame, rest, hbuf, rfl, hleads⟩
        cases frame with
        | nil => rfl
        | cons c frame =>
          -- An occurrence that starts before the first one ends before it does.
          rw [hbuf, ← List.append_assoc] at hhere
          refine absurd (List.prefix_of_prefix_length_le hhere (List.prefix_append _ _) ?_) hleads.1
          rw [List.length_append]
          omega
    next hhere =>
      rw [Option.map_eq_some_iff]
      constructor
      · rintro ⟨i, hi, rfl⟩
        obtain ⟨frame, rest, rfl, rfl, hleads⟩ := ih.mp hi
        exact ⟨b :: frame, rest, rfl, rfl, fun h => hhere (h.trans ⟨rest, by simp⟩), hleads⟩
      · rintro ⟨frame, rest, hbuf, rfl, hleads⟩
        cases frame with
        | nil => exact absurd ⟨rest, hbuf.symm⟩ hhere
        | cons c frame =>
          obtain ⟨rfl, rfl⟩ := List.cons.inj hbuf
          exact ⟨frame.length, ih.mpr ⟨frame, rest, rfl, rfl, hleads.2⟩, rfl⟩

theorem Leads.notContains {frame : List UInt8} (h : Leads sep frame) (hsep : sep ≠ []) :
    ¬ sep <:+: frame := by
  induction frame with
  | nil => simpa using hsep
  | cons b frame ih =>
    rw [List.infix_cons_iff]
    rintro (hhere | hlater)
    · exact h.1 (hhere.trans ⟨sep, rfl⟩)
    · exact ih h.2 hlater

variable {s : List UInt8}

theorem replaceEscape_ne_nil (letter byte : UInt8) (hs : s ≠ []) :
    replaceEscape letter byte s ≠ [] := by
  match s, hs with
  | [b], _ => exact List.cons_ne_nil _ _
  | b0 :: b1 :: rest, _ =>
    rw [replaceEscape]
    split <;> exact List.cons_ne_nil _ _

theorem unescapeDelimiter_ne_nil (hs : s ≠ []) : unescapeDelimiter s ≠ [] :=
  replaceEscape_ne_nil _ _ (replaceEscape_ne_nil _ _ (replaceEscape_ne_nil _ _ hs))

def prefixBytes (littleEndian : Bool) (n length : Nat) : List UInt8 :=
  if littleEndian then (bigEndian n length).reverse else bigEndian n length

def Config.reencode (cfg : Config) (frame : List UInt8) : List UInt8 :=
  match cfg.mode with
  | .delimiter => frame ++ unescapeDelimiter cfg.delimiter
  | .lengthPrefix =>
    prefixBytes cfg.littleEndian cfg.lengthPrefixBytes.toNat frame.length ++ frame
  | .fixedLength | .timeout | .other _ => frame

variable {n : Nat}

theorem prefixBytes_prefixLength (littleEndian : Bool) (hn : n = 1 ∨ n = 2 ∨ n = 4)
    (hbuf : n ≤ buf.length) :
    prefixBytes littleEndian n (prefixLength littleEndian n buf) = buf.take n := by
  have hlength : (buf.take n).length = n := List.length_take_of_le hbuf
  rw [prefixLength, if_pos hn, prefixBytes]
  cases littleEndian with
  | false =>
    have hback := bigEndian_ofBigEndian (buf.take n)
    rwa [hlength] at hback
  | true =>
    have hback := bigEndian_ofBigEndian (buf.take n).reverse
    rw [List.length_reverse, hlength] at hback
    rw [if_pos rfl, if_pos rfl, hback, List.reverse_reverse]

theorem prefixLength_append (littleEndian : Bool) (more : List UInt8) (hbuf : n ≤ buf.length) :
    prefixLength littleEndian n (buf ++ more) = prefixLength littleEndian n buf := by
  rw [prefixLength, prefixLength, List.take_append_of_le_length hbuf]

theorem length_prefixBytes (littleEndian : Bool) (n length : Nat) :
    (prefixBytes littleEndian n length).length = n := by
  cases littleEndian <;> simp [prefixBytes]

section Cuts

variable {cfg : Config} (hvalid : cfg.validate = .ok ())

include hvalid

theorem delimiter_ne_nil (hmode : cfg.mode = .delimiter) :
    unescapeDelimiter cfg.delimiter ≠ [] := by
  apply unescapeDelimiter_ne_nil
  intro hempty
  rw [Config.validate, hmode] at hvalid
  rw [if_pos hempty] at hvalid
  cases hvalid

omit hvalid in
theorem extract_delimiter (hmode : cfg.mode = .delimiter) {delim buf frame rest : List UInt8} :
    extract cfg delim buf = some (frame, rest) ↔
      Leads delim frame ∧ frame ++ delim ++ rest = buf := by
  rw [extract, hmode]
  constructor
  · intro h
    dsimp only at h
    split at h <;> cases h
    next hindex =>
      obtain ⟨first, last, rfl, rfl, hleads⟩ := index_eq_some.mp hindex
      simpa using hleads
  · rintro ⟨hleads, rfl⟩
    rw [List.append_assoc, index_eq_some.mpr ⟨frame, rest, rfl, rfl, hleads⟩]
    simp

theorem cuts_delimiter (hmode : cfg.mode = .delimiter) :
    Cuts (extract cfg (unescapeDelimiter cfg.delimiter)) cfg.reencode := by
  have hpos := List.length_pos_iff.mpr (delimiter_ne_nil hvalid hmode)
  refine .of_iff (Leads (unescapeDelimiter cfg.delimiter)) ?_ ?_ <;>
    simp only [Config.reencode, hmode, List.length_append]
  · exact extract_delimiter hmode
  · exact fun _ _ => by omega

theorem cuts_fixedLength (hmode : cfg.mode = .fixedLength) :
    Cuts (extract cfg (unescapeDelimiter cfg.delimiter)) cfg.reencode := by
  have hpos : 0 < cfg.length := by
    rw [Config.validate, hmode] at hvalid
    dsimp only at hvalid
    split at hvalid
    · cases hvalid
    · omega
  refine .of_iff (fun frame => frame.length = cfg.length.toNat) ?_ ?_ <;>
    simp only [extract, Config.reencode, hmode]
  · intro buf frame rest
    constructor
    · intro h
      split at h <;> cases h
      exact ⟨List.length_take_of_le (by omega), List.take_append_drop _ _⟩
    · rintro ⟨hlength, rfl⟩
      rw [if_neg (by rw [List.length_append]; omega), ← hlength, List.take_left, List.drop_left]
  · exact fun _ _ => by omega

theorem cuts_lengthPrefix (hmode : cfg.mode = .lengthPrefix) :
    Cuts (extract cfg (unescapeDelimiter cfg.delimiter)) cfg.reencode := by
  obtain ⟨n, hn, hbytes⟩ : ∃ n : Nat, (n = 1 ∨ n = 2 ∨ n = 4) ∧ cfg.lengthPrefixBytes = n := by
    rw [Config.validate, hmode] at hvalid
    dsimp only at hvalid
    split at hvalid
    next hwidth => exact ⟨cfg.lengthPrefixBytes.toNat, by omega, by omega⟩
    · cases hvalid
  -- The length of a frame fits its prefix.
  refine .of_iff (fun frame => prefixLength cfg.littleEndian n
    (prefixBytes cfg.littleEndian n frame.length) = frame.length) ?_ ?_ <;>
    simp only [extract, Config.reencode, hmode, hbytes, Int.toNat_natCast]
  · intro buf frame rest
    constructor
    · intro h
      split at h
      · cases h
      split at h <;> cases h
      next hroom =>
        have hframe : ((buf.drop n).take (prefixLength cfg.littleEndian n buf)).length =
            prefixLength cfg.littleEndian n buf :=
          List.length_take_of_le (by rw [List.length_drop]; omega)
        rw [hframe, prefixBytes_prefixLength _ hn (by omega), ← List.drop_drop,
          List.append_assoc, List.take_append_drop, List.take_append_drop]
        exact ⟨by rw [prefixLength, List.take_take, Nat.min_self]; rfl, rfl⟩
    · rintro ⟨hwhole, rfl⟩
      have hwidth := length_prefixBytes cfg.littleEndian n frame.length
      have hlength :=
        prefixLength_append cfg.littleEndian (frame ++ rest) (Nat.le_of_eq hwidth.symm)
      rw [List.append_assoc, hlength, hwhole, if_neg, if_neg]
      · simp only [← List.drop_drop, List.drop_left' hwidth, List.take_left, List.drop_left]
      all_goals
        simp only [List.length_append, hwidth]
        omega
  · intro frame _
    rw [List.length_append, length_prefixBytes]
    omega

theorem cuts_extract (hmode : cfg.mode ≠ .timeout) :
    Cuts (extract cfg (unescapeDelimiter cfg.delimiter)) cfg.reencode := by
  cases hm : cfg.mode with
  | delimiter => exact cuts_delimiter hvalid hm
  | fixedLength => exact cuts_fixedLength hvalid hm
  | lengthPrefix => exact cuts_lengthPrefix hvalid hm
  | timeout => exact absurd hm hmode
  | other name =>
    rw [Config.validate, hm] at hvalid
    cases hvalid

theorem extract_clean (hmode : cfg.mode = .delimiter) {buf frame rest : List UInt8}
    (h : extract cfg (unescapeDelimiter cfg.delimiter) buf = some (frame, rest)) :
    ¬ unescapeDelimiter cfg.delimiter <:+: frame := by
  exact ((extract_delimiter hmode).mp h).1.notContains (delimiter_ne_nil hvalid hmode)

end Cuts

/-- The frames taken so far and the buffer are the stream, and what the buffer still splits into
continues them. -/
structure Sound (cfg : Config) (p : Progress) : Prop where
  lossless : p.frames.flatMap cfg.reencode ++ p.buf = p.received
  consistent : ∀ {frames last},
    Splits (extract cfg (unescapeDelimiter cfg.delimiter)) p.buf frames last →
      Splits (extract cfg (unescapeDelimiter cfg.delimiter)) p.received (p.frames ++ frames) last
  clean : cfg.mode = .delimiter → ∀ frame ∈ p.frames, ¬ unescapeDelimiter cfg.delimiter <:+: frame

def Settled (cfg : Config) (p : Progress) : Prop :=
  extract cfg (unescapeDelimiter cfg.delimiter) p.buf = none

theorem Sound.splits {cfg : Config} {p : Progress} (hsound : Sound cfg p)
    (hsettled : Settled cfg p) :
    Splits (extract cfg (unescapeDelimiter cfg.delimiter)) p.received p.frames p.buf := by
  have hall := hsound.consistent (.done hsettled)
  rwa [List.append_nil] at hall

theorem received_receive (p : Progress) (chunk : List UInt8) (readAt : Int) :
    (p.receive chunk readAt).received = p.received ++ chunk := by
  unfold Progress.receive
  split
  next hempty => rw [hempty, List.append_nil]
  · rfl

section Run

variable {p : Progress}

variable {cfg : Config} (hvalid : cfg.validate = .ok ()) (hmode : cfg.mode ≠ .timeout)
  (onFrame : OnFrame)

include hvalid hmode

theorem Sound.receive (hsound : Sound cfg p) (hsettled : Settled cfg p) (chunk : List UInt8)
    (readAt : Int) : Sound cfg (p.receive chunk readAt) := by
  unfold Progress.receive
  split
  · exact hsound
  · refine ⟨?_, ?_, hsound.clean⟩
    · rw [← List.append_assoc, hsound.lossless]
    · intro frames last h
      exact (hsound.splits hsettled).append (cuts_extract hvalid hmode) h

variable {onFrame} in
theorem Sound.extractPass {next : Progress} (hsound : Sound cfg p)
    (h : extractPass cfg (unescapeDelimiter cfg.delimiter) onFrame p = .inl next) :
    Sound cfg next ∧ next.buf.length < p.buf.length ∧ next.received = p.received := by
  have hcuts := cuts_extract hvalid hmode
  revert h
  fun_cases Framing.extractPass cfg (unescapeDelimiter cfg.delimiter) onFrame p <;> rintro ⟨⟩
  next frame rest hextract _ =>
    refine ⟨⟨?_, ?_, ?_⟩, hcuts.shorter hextract, rfl⟩
    · rw [List.flatMap_append, List.flatMap_singleton, List.append_assoc,
        hcuts.encoded hextract, hsound.lossless]
    · intro frames last hrest
      have hall := hsound.consistent (.next hextract hrest)
      rwa [List.append_cons] at hall
    · intro hdelimiter taken htaken
      rcases List.mem_append.mp htaken with hold | hnew
      · exact hsound.clean hdelimiter taken hold
      · rw [List.mem_singleton.mp hnew]
        exact extract_clean hvalid hdelimiter hextract

theorem Sound.extractAll (hsound : Sound cfg p) :
    ∃ result, iterate (Framing.extractPass cfg (unescapeDelimiter cfg.delimiter) onFrame)
        (p.buf.length + 1) p = some result ∧
      Sound cfg result.1 ∧ result.1.received = p.received ∧
        (interrupts result.2 = false → Settled cfg result.1) ∧
        ((∀ frames frame, onFrame frames frame = none) → result.2 = none) := by
  refine iterate_ends (fun q => Sound cfg q ∧ q.received = p.received) _
    (fun q => q.buf.length) ?_ ?_ ⟨hsound, rfl⟩ (Nat.lt_succ_self _)
  · rintro q q' ⟨hq, hreceived⟩ h
    obtain ⟨hq', hshorter, hsame⟩ := hq.extractPass hvalid hmode h
    exact ⟨⟨hq', hsame.trans hreceived⟩, hshorter⟩
  · rintro q result ⟨hq, hreceived⟩
    fun_cases Framing.extractPass cfg (unescapeDelimiter cfg.delimiter) onFrame q <;> rintro ⟨⟩
    · exact ⟨hq, hreceived, fun _ => by assumption, fun _ => rfl⟩
    · exact ⟨hq, hreceived, nofun, fun h => by simp_all⟩

theorem Sound.takeTurn (hsound : Sound cfg p) (hsettled : Settled cfg p) (t : Turn) :
    ∃ next ending, takeTurn cfg onFrame p t = some (next, ending) ∧ Sound cfg next ∧
      next.received <+: p.received ++ t.bytes ∧ (interrupts ending = false → Settled cfg next) ∧
      (ending = none → next.received = p.received ++ t.bytes) := by
  unfold Framing.takeTurn
  split
  · exact ⟨p, _, rfl, hsound, List.prefix_append _ _, fun _ => hsettled, nofun⟩
  · cases hpoll : t.poll with
    | error text => exact ⟨p, _, rfl, hsound, List.prefix_append _ _, fun _ => hsettled, nofun⟩
    | ok chunk =>
      have hreceived : (p.receive chunk.val t.readAt).received = p.received ++ t.bytes := by
        rw [received_receive, Turn.bytes, hpoll]
      have hnext := hsound.receive hvalid hmode hsettled chunk.val t.readAt
      dsimp only
      split
      · exact ⟨_, _, rfl, hnext, hreceived ▸ List.prefix_rfl, nofun, nofun⟩
      · obtain ⟨⟨last, ending⟩, hloop, hlast, hsame, hdone, -⟩ :=
          hnext.extractAll hvalid hmode onFrame
        rw [hreceived] at hsame
        rw [hloop]
        have hprefix : last.received <+: p.received ++ t.bytes := hsame ▸ List.prefix_rfl
        cases ending with
        | some ending => exact ⟨last, some ending, rfl, hlast, hprefix, hdone, nofun⟩
        | none =>
          dsimp only
          rw [flushIdle, if_neg fun h => hmode h.1]
          exact ⟨last, none, rfl, hlast, hprefix, hdone, fun _ => hsame⟩

theorem Sound.turns (hsound : Sound cfg p) (hsettled : Settled cfg p) (ts : List Turn) :
    ∃ final ending, turns cfg onFrame p ts = some (final, ending) ∧ Sound cfg final ∧
      final.received <+: p.received ++ ts.flatMap Turn.bytes ∧
      (interrupts ending = false → Settled cfg final) ∧
      (ending = none → final.received = p.received ++ ts.flatMap Turn.bytes) := by
  induction ts generalizing p with
  | nil =>
    refine ⟨p, none, rfl, hsound, List.prefix_append _ _, fun _ => hsettled, fun _ => ?_⟩
    rw [List.flatMap_nil, List.append_nil]
  | cons t ts ih =>
    obtain ⟨next, ending, hturn, hnext, hprefix, hsettled', hgoes⟩ :=
      hsound.takeTurn hvalid hmode onFrame hsettled t
    rw [Framing.turns, hturn, List.flatMap_cons, ← List.append_assoc]
    cases ending with
    | some ending =>
      exact ⟨next, some ending, rfl, hnext, hprefix.trans (List.prefix_append _ _),
        hsettled', nofun⟩
    | none =>
      rw [← hgoes rfl]
      exact ih hnext (hsettled' rfl)

theorem sound_start (startedAt : Int) :
    Sound cfg ⟨[], [], [], startedAt⟩ ∧ Settled cfg ⟨[], [], [], startedAt⟩ := by
  refine ⟨⟨rfl, fun h => h, nofun⟩, ?_⟩
  cases hextract : extract cfg (unescapeDelimiter cfg.delimiter) [] with
  | none => exact hextract
  | some cut => exact absurd ((cuts_extract hvalid hmode).shorter hextract) (Nat.not_lt_zero _)

theorem sound_run (startedAt : Int) (ts : List Turn) :
    ∃ p ending, run cfg onFrame startedAt ts = some (.ok (p, ending)) ∧ Sound cfg p ∧
      p.received <+: ts.flatMap Turn.bytes ∧ (interrupts ending = false → Settled cfg p) ∧
      (ending = none → p.received = ts.flatMap Turn.bytes) := by
  obtain ⟨hsound, hsettled⟩ := sound_start hvalid hmode startedAt
  obtain ⟨p, ending, hturns, hp⟩ := hsound.turns hvalid hmode onFrame hsettled ts
  refine ⟨p, ending, ?_, hp⟩
  rw [run, hvalid, hturns]
  rfl

/--
Every run has a result, so the inner loop ends each time.  The frames that were taken and the
buffer re-encode to the bytes received, and runs that received the same bytes, in whatever
reads, have taken the same frames.
-/
theorem run_lossless (startedAt : Int) (ts : List Turn) :
    ∃ p ending, run cfg onFrame startedAt ts = some (.ok (p, ending)) ∧
      p.frames.flatMap cfg.reencode ++ p.buf = p.received ∧
      p.received <+: ts.flatMap Turn.bytes ∧
      (ending = none → p.received = ts.flatMap Turn.bytes) ∧
      (cfg.mode = .delimiter →
        ∀ frame ∈ p.frames, ¬ unescapeDelimiter cfg.delimiter <:+: frame) ∧
      ∀ onFrame' startedAt' ts' p' ending',
        run cfg onFrame' startedAt' ts' = some (.ok (p', ending')) →
        interrupts ending = false → interrupts ending' = false → p'.received = p.received →
        p'.frames = p.frames ∧ p'.buf = p.buf := by
  obtain ⟨p, ending, hrun, hsound, hprefix, hsettled, hall⟩ :=
    sound_run hvalid hmode onFrame startedAt ts
  refine ⟨p, ending, hrun, hsound.lossless, hprefix, hall, hsound.clean, ?_⟩
  intro onFrame' startedAt' ts' p' ending' hrun' hending hending' hreceived
  obtain ⟨q, ending'', hq, hsound', -, hsettled', -⟩ :=
    sound_run hvalid hmode onFrame' startedAt' ts'
  rw [hrun'] at hq
  cases hq
  have hsplits := hsound.splits (hsettled hending)
  have hsplits' := hsound'.splits (hsettled' hending')
  rw [hreceived] at hsplits'
  exact hsplits'.unique hsplits

end Run

def lineConfig : Config := ⟨.delimiter, [10], 0, 0, false, 0, 0⟩

def readTurn (bytes : List UInt8) : Turn :=
  ⟨false, .ok ⟨bytes.take 4096, List.length_take_le 4096 bytes⟩, 0, 0⟩

def oneRead : List Turn := [readTurn [97, 10, 98, 10, 99]]

def fourReads : List Turn := [[97], [], [10, 98, 10], [99]].map readTurn

theorem lines_in_one_read_or_four :
    ∃ p q, run lineConfig (fun _ _ => none) 0 oneRead = some (.ok (p, none)) ∧
      run lineConfig (fun _ _ => none) 0 fourReads = some (.ok (q, none)) ∧
      q.frames = p.frames ∧ p.frames = [[97], [98]] := by
  obtain ⟨p, ending, hrun, -, -, -, -, hsame⟩ :=
    @run_lossless lineConfig rfl nofun (fun _ _ => none) 0 oneRead
  have hone : run lineConfig (fun _ _ => none) 0 oneRead =
      some (.ok (⟨[99], [[97], [98]], [97, 10, 98, 10, 99], 0⟩, none)) := rfl
  have hfour : run lineConfig (fun _ _ => none) 0 fourReads =
      some (.ok (⟨[99], [[97], [98]], [97, 10, 98, 10, 99], 0⟩, none)) := rfl
  rw [hone] at hrun
  cases hrun
  exact ⟨_, _, hone, hfour, (hsame _ 0 fourReads _ none hfour rfl rfl rfl).1, rfl⟩

/-! ## The limit of the buffer -/

/-- Each read fits into the limit together with the incomplete frame before it. -/
def WithinLimit (cfg : Config) : List UInt8 → List Turn → Prop
  | _, [] => True
  | stream, t :: ts => (t.bytes ≠ [] → ∀ frames last,
      Splits (extract cfg (unescapeDelimiter cfg.delimiter)) stream frames last →
      ((last ++ t.bytes).length : Int) ≤ cfg.maxFrame) ∧ WithinLimit cfg (stream ++ t.bytes) ts

def Turn.Reads (t : Turn) : Prop := t.cancelled = false ∧ t.poll.isOk = true

section Limit

variable {p : Progress} {cfg : Config} (hvalid : cfg.validate = .ok ())
  (hmode : cfg.mode ≠ .timeout)

include hvalid hmode

theorem Sound.takeTurn_reads (hsound : Sound cfg p) (hsettled : Settled cfg p) {t : Turn}
    (hreads : t.Reads) :
    if t.bytes ≠ [] ∧ cfg.maxFrame < (p.buf ++ t.bytes).length then
      ∃ q length limit,
        Framing.takeTurn cfg (fun _ _ => none) p t = some (q, some (.size length limit))
    else ∃ q, Framing.takeTurn cfg (fun _ _ => none) p t = some (q, none) := by
  obtain ⟨hlive, hok⟩ := hreads
  cases hpoll : t.poll with
  | error => simp [hpoll, Except.isOk, Except.toBool] at hok
  | ok chunk =>
    have hbytes : t.bytes = chunk.val := by rw [Turn.bytes, hpoll]
    have hbuf : (p.receive chunk.val t.readAt).buf = p.buf ++ chunk.val := by
      unfold Progress.receive
      split <;> simp_all
    simp only [Framing.takeTurn, hlive, hpoll, hbuf, hbytes]
    split
    · exact ⟨_, _, _, rfl⟩
    · obtain ⟨⟨last, ending⟩, hloop, -, -, -, hnone⟩ :=
        (hsound.receive hvalid hmode hsettled chunk.val t.readAt).extractAll hvalid hmode
          fun _ _ => none
      obtain rfl : ending = none := hnone fun _ _ => rfl
      rw [hbuf] at hloop
      rw [hloop]
      exact ⟨last, by simp [flushIdle, hmode]⟩

theorem Sound.turns_size_iff (hsound : Sound cfg p) (hsettled : Settled cfg p) {ts : List Turn}
    (hreads : ∀ t ∈ ts, t.Reads) :
    (∃ q length limit,
      Framing.turns cfg (fun _ _ => none) p ts = some (q, some (.size length limit))) ↔
      ¬ WithinLimit cfg p.received ts := by
  induction ts generalizing p with
  | nil => simp [Framing.turns, WithinLimit]
  | cons t ts ih =>
    have hturn := hsound.takeTurn_reads hvalid hmode hsettled (hreads t List.mem_cons_self)
    have hfits : (t.bytes ≠ [] → ∀ frames last,
        Splits (extract cfg (unescapeDelimiter cfg.delimiter)) p.received frames last →
        ((last ++ t.bytes).length : Int) ≤ cfg.maxFrame) ↔
        ¬ (t.bytes ≠ [] ∧ cfg.maxFrame < (p.buf ++ t.bytes).length) := by
      rw [not_and, Int.not_lt]
      refine imp_congr_right fun _ => ⟨fun h => h _ _ (hsound.splits hsettled), ?_⟩
      intro h frames last hsplits
      rwa [← (hsplits.unique (hsound.splits hsettled)).2] at h
    rw [WithinLimit, hfits]
    split at hturn
    next hover =>
      obtain ⟨q, length, limit, hq⟩ := hturn
      exact iff_of_true ⟨q, length, limit, by simp [Framing.turns, hq]⟩ fun h => h.1 hover
    next hroom =>
      obtain ⟨q, hq⟩ := hturn
      obtain ⟨_, _, hq', hsound', -, hsettled', hreceived⟩ :=
        hsound.takeTurn hvalid hmode (fun _ _ => none) hsettled t
      cases hq.symm.trans hq'
      simp only [Framing.turns, hq, and_iff_right hroom, ← hreceived rfl]
      exact ih hsound' (hsettled' rfl) fun t ht => hreads t (.tail _ ht)

/--
A run that only reads reports too many accumulated bytes exactly when some read, together with the
incomplete frame before it, is longer than the limit, whatever frames that read completes.
-/
theorem size_error_iff (startedAt : Int) {ts : List Turn} (hreads : ∀ t ∈ ts, t.Reads) :
    (∃ q length limit, run cfg (fun _ _ => none) startedAt ts =
      some (.ok (q, some (.size length limit)))) ↔ ¬ WithinLimit cfg [] ts := by
  obtain ⟨hsound, hsettled⟩ := sound_start hvalid hmode startedAt
  rw [← hsound.turns_size_iff hvalid hmode hsettled hreads, run, hvalid]
  simp

end Limit

theorem line_within_limit :
    lineConfig.validate = .ok () ∧ (∀ t ∈ oneRead, t.Reads) ∧ WithinLimit lineConfig [] oneRead ∧
      ¬ ∃ q length limit, run lineConfig (fun _ _ => none) 0 oneRead =
        some (.ok (q, some (.size length limit))) := by
  have hreads : ∀ t ∈ oneRead, t.Reads := by simp [oneRead, readTurn, Turn.Reads]; rfl
  have hwithin : WithinLimit lineConfig [] oneRead := by
    refine ⟨fun _ frames last hsplits => ?_, trivial⟩
    rw [(hsplits.unique (.done rfl)).2]
    decide
  exact ⟨rfl, hreads, hwithin, fun h => (size_error_iff rfl (by decide) 0 hreads).mp h hwithin⟩

theorem complete_lines_refused :
    (∃ q, run { lineConfig with maxFrameBytes := 4 } (fun _ _ => none) 0
      [readTurn [97, 10, 98, 10, 99, 10]] = some (.ok (q, some (.size 6 4)))) ∧
    Splits (extract { lineConfig with maxFrameBytes := 4 } [10]) [97, 10, 98, 10, 99, 10]
      [[97], [98], [99]] [] ∧
    ∀ frame ∈ [[97], [98], [99]], (lineConfig.reencode frame).length ≤ 4 :=
  ⟨⟨_, rfl⟩, .next rfl (.next rfl (.next rfl (.done rfl))), by decide⟩

end DataPipe.Nodes.Framing
