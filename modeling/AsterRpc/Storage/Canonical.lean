import AsterRpc.Storage.RowStream
import AsterRpc.Storage.Valid

/-!
# One body, one encoding

The bodies that the framing allows are described once, as a header and sections
that fit it, together with their bytes.  The reader accepts the bytes of such a
body and nothing else; whatever calls are made on a writer, if it finishes, it has
written such a body, and every such body can be written.  So the writer and the
reader agree on which bodies there are, and each of them has one encoding.
-/

namespace AsterRpc.Coordination

open AsterRpc.Foundation List

variable {r rest : Bytes} {n : ℕ}

namespace BodyProfile

variable (P : BodyProfile)

/-! ### Bodies -/

/-- The codecs of the profile read back what they wrote. -/
structure RoundTrips : Prop where
  header : P.header.RoundTrips
  row : P.row.RoundTrips

def encodedHeader (header : P.Header) : Bytes := (P.header.serialize header).getD []

def rowFrame (row : P.Row) : Bytes := frame ((P.row.serialize row).getD [])

/-- A header that may start a body. -/
structure HeaderFits (header : P.Header) : Prop where
  valid : P.validateHeader header = .ok ()
  encodes : ∃ enc, P.header.serialize header = some enc ∧ enc.length ≤ maxHeaderBytes

/-- A row that may stand in the section. -/
structure RowFits (sid : ℕ) (lim : SectionLimits) (row : P.Row) : Prop where
  inSection : P.sectionOf row = some sid
  valid : P.validate row = .ok ()
  encodes : ∃ enc, P.row.serialize row = some enc ∧ enc.length ≤ lim.maxRowBytes

/-- The row's key is past the last one. -/
def After (lastKey : Option OrderKey) (row : P.Row) : Prop :=
  (lastKey.any fun prev => (compare (P.orderKey row) prev).isLE) = false

/-- The rows' keys ascend from the last one on. -/
def Ascends : Option OrderKey → List P.Row → Prop
  | _, [] => True
  | lastKey, row :: rest => P.After lastKey row ∧ Ascends (some (P.orderKey row)) rest

/-- A section under its id, with all of its rows. -/
abbrev Section := ℕ × List P.Row

/-- A section that may stand in a body with this header. -/
structure SectionFits (header : P.Header) (sec : P.Section) : Prop where
  legal : sec.1 ∈ P.legalSections
  declared : (P.rowCounts header).get sec.1 = some sec.2.length
  rows : ∃ lim, limits sec.1 = some lim ∧ sec.2.length ≤ lim.maxRows ∧
    ∀ row ∈ sec.2, P.RowFits sec.1 lim row
  ascends : P.Ascends none sec.2

def sectionBytes (sec : P.Section) : Bytes :=
  writeVarint sec.1 ++ (writeVarint sec.2.length ++ sec.2.flatMap P.rowFrame)

def sectionRows (sec : P.Section) : List (ℕ × P.Row) := sec.2.map fun row => (sec.1, row)

/-- The section ids ascend from the last one on. -/
def SectionsAscend : ℕ → List P.Section → Prop
  | _, [] => True
  | previous, sec :: rest => previous < sec.1 ∧ SectionsAscend sec.1 rest

/-- **A body**: a header and every section of the profile, in order. -/
structure WellFormed (header : P.Header) (sections : List P.Section) : Prop where
  start : P.HeaderFits header
  profile : sections.map Prod.fst = P.legalSections
  ascend : P.SectionsAscend 0 sections
  sections : ∀ sec ∈ sections, P.SectionFits header sec

def bodyBytes (header : P.Header) (sections : List P.Section) : Bytes :=
  frame (P.encodedHeader header) ++ sections.flatMap P.sectionBytes

/-- The rows of a body in order, each with its section. -/
def bodyRows (sections : List P.Section) : List (ℕ × P.Row) := sections.flatMap P.sectionRows

variable {P}

/-- A visitor shown the rows, one after the other. -/
def visitRows {σ : Type} (v : BodyVisitor P σ) : σ → List (ℕ × P.Row) → Except BodyError σ
  | s, [] => .ok s
  | s, row :: rest => do
    let s ← v.row s row.1 row.2
    visitRows v s rest

/-- A visitor shown a header and rows. -/
def visitBody {σ : Type} (v : BodyVisitor P σ) (s : σ) (header : P.Header)
    (rows : List (ℕ × P.Row)) : Except BodyError σ := do
  let s ← v.header s header
  visitRows v s rows

theorem visitRows_append {σ : Type} (v : BodyVisitor P σ) (s : σ) (xs ys : List (ℕ × P.Row)) :
    visitRows v s (xs ++ ys) = visitRows v s xs >>= fun s => visitRows v s ys := by
  induction xs generalizing s with
  | nil => rfl
  | cons row rest ih =>
    simp [visitRows, ih, bind_assoc]

end BodyProfile

/-! ### Frames -/

theorem streamVarint_eq_ok :
    streamVarint r = .ok (n, rest) ↔ n < 2 ^ 64 ∧ r = writeVarint n ++ rest := by
  rw [← readVarint_eq_ok, streamVarint]
  cases readVarint r <;> simp [Except.mapError]

theorem streamVarintBoundary_eq_ok {o : Option (ℕ × Bytes)} :
    streamVarintBoundary r = .ok o ↔ (r = [] ∧ o = none) ∨
      ∃ n rest, o = some (n, rest) ∧ n < 2 ^ 64 ∧ r = writeVarint n ++ rest := by
  rw [← readVarintBoundary_eq_ok, streamVarintBoundary]
  cases readVarintBoundary r <;> simp [Except.mapError]

theorem readBoundary_nil : streamVarintBoundary [] = .ok none := rfl

theorem readExact_eq_ok {bytes : Bytes} :
    readExact n r = .ok (bytes, rest) ↔ bytes.length = n ∧ r = bytes ++ rest := by
  simp only [readExact, accepts_iff, Prod.mk.injEq]
  constructor
  · rintro ⟨hlen, rfl, rfl⟩
    exact ⟨length_take_of_le hlen, (take_append_drop n r).symm⟩
  · rintro ⟨rfl, rfl⟩
    exact ⟨by simp, take_left, drop_left⟩

/-- The ceilings are far from the width of the length field. -/
theorem limits_small {sid : ℕ} {lim : SectionLimits} (h : limits sid = some lim) :
    sid < 2 ^ 64 ∧ lim.maxRows < 2 ^ 64 ∧ lim.maxRowBytes < 2 ^ 64 := by
  unfold limits at h
  split_ifs at h with h1 h2 h3 h4 h5 h6 h7 <;> cases h <;> subst sid <;> decide

/-- A frame of at most `max` bytes is read exactly when it stands at the front. -/
theorem readFrame_iff {max : ℕ} (hmax : max < 2 ^ 64) {buf : Bytes} :
    (∃ len r', streamVarint r = .ok (len, r') ∧ len ≤ max ∧
      readExact len r' = .ok (buf, rest)) ↔ buf.length ≤ max ∧ r = frame buf ++ rest := by
  simp only [streamVarint_eq_ok, readExact_eq_ok, frame, append_assoc]
  constructor
  · rintro ⟨_, _, ⟨-, rfl⟩, hlen, rfl, rfl⟩
    exact ⟨hlen, rfl⟩
  · rintro ⟨hlen, rfl⟩
    exact ⟨buf.length, _, ⟨Nat.lt_of_le_of_lt hlen hmax, rfl⟩, hlen, rfl, rfl⟩

namespace BodyProfile

variable {P : BodyProfile} {σ : Type} (v : BodyVisitor P σ) {r rest bytes : Bytes}
  {header : P.Header} {sid previous fuel : ℕ} {lim : SectionLimits} {lastKey : Option OrderKey}
  {row : P.Row} {s s' : σ} {sec : P.Section} {sections : List P.Section} {b : BodyWriter}
  {rows : List (ℕ × P.Row)}

/-! ### Reading -/

section

variable (hround : P.RoundTrips)

include hround

/-- The reader takes a header exactly when its own frame stands at the front. -/
theorem readHeader_eq_ok :
    P.readHeader r = .ok (header, rest) ↔
      P.HeaderFits header ∧ r = frame (P.encodedHeader header) ++ rest := by
  simp only [readHeader, accepts_iff, Prod.mk.injEq]
  constructor
  · rintro ⟨len, r', hlen, hsmall, _, _, hbuf, header', hdecode, enc, henc, rfl, hvalid,
      rfl, rfl⟩
    obtain ⟨hmax, rfl⟩ := (readFrame_iff (by decide)).mp ⟨len, r', hlen, hsmall, hbuf⟩
    refine ⟨⟨hvalid, enc, henc, hmax⟩, ?_⟩
    rw [encodedHeader, henc]
    rfl
  · rintro ⟨⟨hvalid, enc, henc, hmax⟩, rfl⟩
    rw [encodedHeader, henc, Option.getD_some]
    obtain ⟨len, r', hlen, hsmall, hbuf⟩ :=
      (readFrame_iff (show maxHeaderBytes < 2 ^ 64 by decide)).mpr ⟨hmax, rfl⟩
    exact ⟨len, r', hlen, hsmall, enc, rest, hbuf, header, hround.header _ _ henc, enc, henc, rfl,
      hvalid, rfl, rfl⟩

/-- And a row. -/
theorem readRow_eq_ok (hlim : lim.maxRowBytes < 2 ^ 64) :
    P.readRow sid lim lastKey r = .ok (row, rest) ↔
      P.RowFits sid lim row ∧ P.After lastKey row ∧ r = P.rowFrame row ++ rest := by
  simp only [readRow, accepts_iff, Prod.mk.injEq]
  constructor
  · rintro ⟨len, r', hlen, hsmall, _, _, hbuf, _, hdecode, enc, henc, rfl, _, hsec, rfl,
      hvalid, hafter, rfl, rfl⟩
    obtain ⟨hmax, rfl⟩ := (readFrame_iff hlim).mp ⟨len, r', hlen, hsmall, hbuf⟩
    refine ⟨⟨hsec, hvalid, enc, henc, hmax⟩, hafter, ?_⟩
    rw [rowFrame, henc]
    rfl
  · rintro ⟨⟨hsec, hvalid, enc, henc, hmax⟩, hafter, rfl⟩
    rw [rowFrame, henc, Option.getD_some]
    obtain ⟨len, r', hlen, hsmall, hbuf⟩ := (readFrame_iff hlim).mpr ⟨hmax, rfl⟩
    exact ⟨len, r', hlen, hsmall, enc, rest, hbuf, row, hround.row _ _ henc, enc, henc, rfl, sid,
      hsec, rfl, hvalid, hafter, rfl, rfl⟩

/-- The rows of a section in their frames are shown to the visitor, up to its first refusal. -/
theorem readRows_frames (hlim : lim.maxRowBytes < 2 ^ 64) {rows : List P.Row}
    (hfits : ∀ row ∈ rows, P.RowFits sid lim row) (hascends : P.Ascends lastKey rows) (s : σ)
    (rest : Bytes) :
    readRows v sid lim rows.length lastKey s (rows.flatMap P.rowFrame ++ rest) =
      (visitRows v s (rows.map fun row => (sid, row))).map fun s => (s, rest) := by
  induction rows generalizing lastKey s with
  | nil => rfl
  | cons row rows ih =>
    have hrow : P.readRow sid lim lastKey (P.rowFrame row ++ (rows.flatMap P.rowFrame ++ rest)) =
        .ok (row, rows.flatMap P.rowFrame ++ rest) :=
      (readRow_eq_ok hround hlim).mpr ⟨hfits row mem_cons_self, hascends.1, rfl⟩
    rw [length_cons, readRows, flatMap_cons, append_assoc, hrow, map_cons,
      visitRows]
    dsimp only [bind, Except.bind]
    cases v.row s sid row with
    | error => rfl
    | ok s' =>
      exact ih (fun row' hmem => hfits row' (mem_cons_of_mem row hmem)) hascends.2 s'

/-- Nothing else is read as rows of a section. -/
theorem readRows_exact (hlim : lim.maxRowBytes < 2 ^ 64) {n : ℕ}
    (h : readRows v sid lim n lastKey s r = .ok (s', rest)) :
    ∃ rows : List P.Row, rows.length = n ∧ (∀ row ∈ rows, P.RowFits sid lim row) ∧
      P.Ascends lastKey rows ∧ r = rows.flatMap P.rowFrame ++ rest := by
  induction n generalizing lastKey s r with
  | zero =>
    cases h
    exact ⟨[], rfl, by simp, trivial, rfl⟩
  | succ n ih =>
    simp only [readRows, accepts_iff] at h
    obtain ⟨row, _, hrow, _, -, hrest⟩ := h
    obtain ⟨hfits, hafter, rfl⟩ := (readRow_eq_ok hround hlim).mp hrow
    obtain ⟨rows, rfl, hall, hascends, rfl⟩ := ih hrest
    exact ⟨row :: rows, rfl, forall_mem_cons.mpr ⟨hfits, hall⟩, ⟨hafter, hascends⟩, by simp⟩

/-- A section that fits is read to its end. -/
theorem readSection_bytes (hfits : P.SectionFits header sec) (hascend : previous < sec.1) (s : σ)
    (rest : Bytes) :
    readSection v header previous sec.1 s
        (writeVarint sec.2.length ++ (sec.2.flatMap P.rowFrame ++ rest)) =
      (visitRows v s (P.sectionRows sec)).map fun s => (s, rest) := by
  obtain ⟨lim, hlim, hmax, hrows⟩ := hfits.rows
  obtain ⟨-, hrowsSmall, hbytesSmall⟩ := limits_small hlim
  have hcount : streamVarint (writeVarint sec.2.length ++ (sec.2.flatMap P.rowFrame ++ rest)) =
      .ok (sec.2.length, sec.2.flatMap P.rowFrame ++ rest) :=
    streamVarint_eq_ok.mpr ⟨Nat.lt_of_le_of_lt hmax hrowsSmall, rfl⟩
  have hread := readRows_frames v hround hbytesSmall hrows hfits.ascends s rest
  rw [readSection, hlim, hcount, hfits.declared]
  have horder : decide (sec.1 ≤ previous) = false := decide_eq_false (Nat.not_le.mpr hascend)
  have hlegal : (!P.legalSections.contains sec.1) = false := by simp [hfits.legal]
  have hrowCount : decide (sec.2.length > lim.maxRows) = false :=
    decide_eq_false (Nat.not_lt.mpr hmax)
  simp only [horder, hlegal, refuseIf_false, requireSome_some, ok_bind, hrowCount,
    bne_self_eq_false]
  exact hread

/-- Nothing else is read as a section. -/
theorem readSection_exact (h : readSection v header previous sid s r = .ok (s', rest)) :
    ∃ rows : List P.Row, previous < sid ∧ P.SectionFits header (sid, rows) ∧
      r = writeVarint rows.length ++ (rows.flatMap P.rowFrame ++ rest) := by
  simp only [readSection, accepts_iff, streamVarint_eq_ok] at h
  obtain ⟨horder, hlegal, lim, hlim, _, _, ⟨-, rfl⟩, hmax, _, hpromised, rfl, hrows⟩ :=
    h
  obtain ⟨rows, rfl, hfits, hascends, rfl⟩ :=
    readRows_exact v hround (limits_small hlim).2.2 hrows
  refine ⟨rows, Nat.not_le.mp horder, ⟨?_, hpromised, ?_, hascends⟩, rfl⟩
  · simpa using hlegal
  · exact ⟨lim, hlim, hmax, hfits⟩

/-- Sections that fit are read to the end of the input. -/
theorem readSections_bytes (hfits : ∀ sec ∈ sections, P.SectionFits header sec)
    (hascend : P.SectionsAscend previous sections) (seen : List ℕ) (s : σ)
    (hfuel : (sections.flatMap P.sectionBytes).length < fuel) :
    readSections v header fuel previous seen s (sections.flatMap P.sectionBytes) =
      (visitRows v s (P.bodyRows sections)).map fun s => (seen ++ sections.map Prod.fst, s) := by
  induction sections generalizing previous seen s fuel with
  | nil =>
    cases fuel with
    | zero => exact absurd hfuel (Nat.not_lt_zero _)
    | succ =>
      simp only [flatMap_nil, readSections, readBoundary_nil, ok_bind, bodyRows, visitRows,
        Except.map, map_nil, append_nil]
  | cons sec sections ih =>
    cases fuel with
    | zero => exact absurd hfuel (Nat.not_lt_zero _)
    | succ fuel =>
      obtain ⟨_, hlim, -, -⟩ := (hfits sec mem_cons_self).rows
      have hid := streamVarintBoundary_eq_ok.mpr (Or.inr ⟨sec.1, writeVarint sec.2.length ++
        (sec.2.flatMap P.rowFrame ++ sections.flatMap P.sectionBytes), rfl, (limits_small hlim).1,
        rfl⟩)
      have hsection := readSection_bytes v hround (hfits sec mem_cons_self) hascend.1 s
        (sections.flatMap P.sectionBytes)
      have hbytes : (sec :: sections).flatMap P.sectionBytes = writeVarint sec.1 ++
          (writeVarint sec.2.length ++
            (sec.2.flatMap P.rowFrame ++ sections.flatMap P.sectionBytes)) := by
        simp only [flatMap_cons, sectionBytes, append_assoc]
      have hlen : (sections.flatMap P.sectionBytes).length < fuel := by
        have hpos := length_pos_iff.mpr (writeVarint_ne_nil sec.1)
        rw [hbytes] at hfuel
        simp only [length_append] at hfuel
        omega
      rw [hbytes, readSections, hid, ok_bind]
      dsimp only
      rw [hsection, bodyRows, flatMap_cons, visitRows_append]
      cases visitRows v s (P.sectionRows sec) with
      | error => rfl
      | ok s' =>
        have hrest := ih (fun sec' hmem => hfits sec' (mem_cons_of_mem sec hmem)) hascend.2
          (seen ++ [sec.1]) s' hlen
        simp only [Except.map, ok_bind, hrest, map_cons, append_assoc,
          singleton_append, bodyRows]

/-- Nothing else is read as the sections of a body. -/
theorem readSections_exact {seen seen' : List ℕ}
    (h : readSections v header fuel previous seen s r = .ok (seen', s')) :
    ∃ sections : List P.Section, P.SectionsAscend previous sections ∧
      (∀ sec ∈ sections, P.SectionFits header sec) ∧ r = sections.flatMap P.sectionBytes ∧
      seen' = seen ++ sections.map Prod.fst := by
  induction fuel generalizing previous seen s r with
  | zero => cases h
  | succ fuel ih =>
    simp only [readSections, bind_accepts] at h
    obtain ⟨_, hnext, h⟩ := h
    rcases streamVarintBoundary_eq_ok.mp hnext with ⟨rfl, rfl⟩ | ⟨sid, _, rfl, -, rfl⟩
    · cases h
      exact ⟨[], trivial, by simp, rfl, by simp⟩
    · simp only [accepts_iff] at h
      obtain ⟨_, _, hsection, hrest⟩ := h
      obtain ⟨rows, hascend, hfits, rfl⟩ := readSection_exact v hround hsection
      obtain ⟨sections, hascends, hall, rfl, rfl⟩ := ih hrest
      refine ⟨(sid, rows) :: sections, ⟨hascend, hascends⟩, forall_mem_cons.mpr ⟨hfits, hall⟩, ?_,
        by simp⟩
      simp [flatMap_cons, sectionBytes]

/-- **The reader reads every body**, and shows it to the visitor as it stands. -/
theorem readBody_bytes (h : P.WellFormed header sections) (s : σ) :
    readBody v s (P.bodyBytes header sections) = visitBody v s header (P.bodyRows sections) := by
  have hhead : P.readHeader (P.bodyBytes header sections) =
      .ok (header, sections.flatMap P.sectionBytes) :=
    (readHeader_eq_ok hround).mpr ⟨h.start, rfl⟩
  rw [readBody, hhead, visitBody, ok_bind]
  dsimp only
  cases v.header s header with
  | error => rfl
  | ok s' =>
    have hsections := readSections_bytes v hround h.sections h.ascend [] s' (Nat.lt_succ_self _)
    rw [ok_bind, ok_bind, hsections, nil_append, h.profile]
    cases visitRows v s' (P.bodyRows sections) with
    | error => rfl
    | ok => simp only [Except.map, ok_bind, bne_self_eq_false, refuseIf_false]

/-- **The reader reads nothing but bodies.** -/
theorem readBody_exact (h : readBody v s r = .ok s') :
    ∃ header sections, P.WellFormed header sections ∧ r = P.bodyBytes header sections := by
  simp only [readBody, accepts_iff] at h
  obtain ⟨header, _, hhead, _, -, _, _, hsections, hseen, -⟩ := h
  obtain ⟨hstart, rfl⟩ := (readHeader_eq_ok hround).mp hhead
  obtain ⟨sections, hascend, hfits, rfl, rfl⟩ := readSections_exact v hround hsections
  exact ⟨header, sections, ⟨hstart, hseen, hascend, hfits⟩, rfl⟩

end

/-! ### Writing whatever is called -/

/-- The key of the last row, if there was one since `lastKey`. -/
def lastKeyFrom (P : BodyProfile) : Option OrderKey → List P.Row → Option OrderKey
  | lastKey, [] => lastKey
  | _, row :: rest => lastKeyFrom P (some (P.orderKey row)) rest

theorem lastKeyFrom_append (lastKey : Option OrderKey) (rows : List P.Row) (row : P.Row) :
    P.lastKeyFrom lastKey (rows ++ [row]) = some (P.orderKey row) := by
  induction rows generalizing lastKey with
  | nil => rfl
  | cons first rest ih => exact ih _

theorem Ascends.append {rows : List P.Row} (h : P.Ascends lastKey rows)
    (hrow : P.After (P.lastKeyFrom lastKey rows) row) : P.Ascends lastKey (rows ++ [row]) := by
  induction rows generalizing lastKey with
  | nil => exact ⟨hrow, trivial⟩
  | cons first rest ih => exact ⟨h.1, ih h.2 hrow⟩

theorem SectionsAscend.append (h : P.SectionsAscend previous sections)
    (hprevious : previous < sec.1) (hlast : ∀ s ∈ sections, s.1 < sec.1) :
    P.SectionsAscend previous (sections ++ [sec]) := by
  induction sections generalizing previous with
  | nil => exact ⟨hprevious, trivial⟩
  | cons first rest ih =>
    refine ⟨h.1, ih h.2 (hlast first mem_cons_self) fun s hs => ?_⟩
    exact hlast s (mem_cons_of_mem first hs)

/-- The sections a writer has closed. -/
structure Emitted (P : BodyProfile) (header : P.Header) (b : BodyWriter)
    (sections : List P.Section) : Prop where
  counts : b.headerCounts = P.rowCounts header
  fits : ∀ sec ∈ sections, P.SectionFits header sec
  ascend : P.SectionsAscend 0 sections
  emitted : b.emitted = sections.map Prod.fst

/-- A section that is being written, with the rows it has so far. -/
structure Opened (P : BodyProfile) (header : P.Header) (b : BodyWriter) (sec : P.Section)
    (declared : ℕ) : Prop where
  opened : b.opened = some ⟨sec.1, declared, sec.2.length⟩
  previous : b.previousSection = sec.1
  legal : sec.1 ∈ P.legalSections
  promised : (P.rowCounts header).get sec.1 = some declared
  rows : ∃ lim, limits sec.1 = some lim ∧ declared ≤ lim.maxRows ∧
    ∀ row ∈ sec.2, P.RowFits sec.1 lim row
  ascends : P.Ascends none sec.2
  lastKey : b.lastKey = P.lastKeyFrom none sec.2

/-- **Where a writer stands**: between two sections, within one, or past one that it closed
before all its rows were written.  `rows` are the rows written so far. -/
inductive Progress (P : BodyProfile) (header : P.Header) (b : BodyWriter)
    (rows : List (ℕ × P.Row)) : Prop where
  | between (sections : List P.Section) (emitted : P.Emitted header b sections)
      (closed : b.opened = none) (previous : ∀ sec ∈ sections, sec.1 ≤ b.previousSection)
      (written : b.w = P.bodyBytes header sections) (all : rows = P.bodyRows sections) :
      Progress P header b rows
  | within (sections : List P.Section) (sec : P.Section) (declared : ℕ)
      (emitted : P.Emitted header b sections) (opened : P.Opened header b sec declared)
      (previous : ∀ s ∈ sections, s.1 < sec.1) (positive : 0 < sec.1)
      (written : b.w = P.bodyBytes header sections ++
        (writeVarint sec.1 ++ (writeVarint declared ++ sec.2.flatMap P.rowFrame)))
      (all : rows = P.bodyRows sections ++ P.sectionRows sec) : Progress P header b rows
  | lost (sid : ℕ) (legal : sid ∈ P.legalSections) (missing : sid ∉ b.emitted)
      (passed : sid ≤ b.previousSection) (opened : ∀ s, b.opened = some s → sid < s.sid) :
      Progress P header b rows

theorem newWriter_progress (h : P.newWriter header = .ok b) :
    P.HeaderFits header ∧ P.Progress header b [] := by
  simp only [newWriter, accepts_iff] at h
  obtain ⟨hvalid, enc, henc, hmax, rfl⟩ := h
  refine ⟨⟨hvalid, enc, henc, hmax⟩, ?_⟩
  refine .between [] ⟨rfl, by simp, trivial, rfl⟩ rfl (by simp) ?_ rfl
  simp [bodyBytes, encodedHeader, henc]

section

variable (h : P.Progress header b rows)

include h

/-- Closing the open section: it is there in full, or the body is lost. -/
theorem endSection_progress :
    (endSection b).1.opened = none ∧ P.Progress header (endSection b).1 rows := by
  cases h with
  | between sections emitted closed previous written all =>
    rw [endSection, closed]
    exact ⟨closed, .between sections emitted closed previous written all⟩
  | within sections sec declared emitted opened previous positive written all =>
    rw [endSection, opened.opened]
    dsimp only
    split_ifs with hcount
    · refine ⟨rfl, .lost sec.1 opened.legal ?_ (Nat.le_of_eq opened.previous.symm) ?_⟩
      · dsimp only
        rw [emitted.emitted]
        intro hmem
        obtain ⟨s, hs, hsid⟩ := mem_map.mp hmem
        exact absurd hsid (Nat.ne_of_lt (previous s hs))
      · intro s hs
        cases hs
    · have hdeclared : declared = sec.2.length := not_not.mp hcount
      obtain ⟨lim, hlim, hmax, hfits⟩ := opened.rows
      refine ⟨rfl, .between (sections ++ [sec]) ⟨emitted.counts, ?_, ?_, ?_⟩ rfl ?_ ?_ ?_⟩
      · refine forall_mem_append.mpr ⟨emitted.fits, forall_mem_singleton.mpr ?_⟩
        exact ⟨opened.legal, hdeclared ▸ opened.promised, ⟨lim, hlim, hdeclared ▸ hmax, hfits⟩,
          opened.ascends⟩
      · exact emitted.ascend.append positive previous
      · simp [emitted.emitted]
      · intro s hs
        rw [opened.previous]
        rcases mem_append.mp hs with hs | hs
        · exact Nat.le_of_lt (previous s hs)
        · rw [mem_singleton.mp hs]
      · simp [written, bodyBytes, sectionBytes, hdeclared]
      · simp [all, bodyRows]
  | lost sid legal missing passed opened =>
    unfold endSection
    cases hopen : b.opened with
    | none => exact ⟨hopen, .lost sid legal missing passed opened⟩
    | some s =>
      dsimp only
      split_ifs with hcount
      · exact ⟨rfl, .lost sid legal missing passed fun s hs => by cases hs⟩
      · refine ⟨rfl, .lost sid legal ?_ passed fun s hs => by cases hs⟩
        have hlt := opened s hopen
        simp [missing, Nat.ne_of_lt hlt]

theorem beginSection_progress (sid : ℕ) : P.Progress header (P.beginSection b sid).1 rows := by
  obtain ⟨hclosed, hprog⟩ := endSection_progress h
  unfold beginSection
  generalize endSection b = closing at hclosed hprog
  obtain ⟨b, result⟩ := closing
  cases result with
  | error => exact hprog
  | ok =>
    dsimp only at hclosed hprog ⊢
    cases hcheck : P.checkSection b sid with
    | error => exact hprog
    | ok declared =>
      simp only [checkSection, accepts_iff] at hcheck
      obtain ⟨horder, hlegal, declared, hpromised, lim, hlim, hmax, rfl⟩ := hcheck
      have hafter : b.previousSection < sid := Nat.not_le.mp horder
      cases hprog with
      | between sections emitted closed previous written all =>
        refine .within sections (sid, []) declared
          ⟨emitted.counts, emitted.fits, emitted.ascend, emitted.emitted⟩
          ⟨rfl, rfl, by simpa using hlegal, emitted.counts ▸ hpromised,
            ⟨lim, hlim, hmax, by simp⟩, trivial, rfl⟩ ?_ (Nat.zero_lt_of_lt hafter)
          ?_ ?_
        · exact fun s hs => Nat.lt_of_le_of_lt (previous s hs) hafter
        · simp [written]
        · simp [all, sectionRows]
      | within sections sec declared emitted opened =>
        rw [opened.opened] at hclosed
        cases hclosed
      | lost d legal missing passed =>
        refine .lost d legal missing (Nat.le_trans passed (Nat.le_of_lt hafter)) ?_
        intro s hs
        cases hs
        exact Nat.lt_of_le_of_lt passed hafter

theorem writeRow_progress (row : P.Row) :
    P.Progress header (P.writeRow b row).1 (rows ++ P.acceptedRow b (.row row)) := by
  cases hcheck : P.checkRow b row with
  | error e =>
    have hwrite : P.writeRow b row = (b, .error e) := by rw [writeRow, hcheck]
    have hnone : P.acceptedRow b (.row row) = [] := by
      simp [acceptedRow, call, hwrite]
    rw [hwrite, hnone, append_nil]
    exact h
  | ok found =>
    obtain ⟨s, enc⟩ := found
    have hwrite : P.writeRow b row =
        ({ b with
            lastKey := some (P.orderKey row)
            w := b.w ++ frame enc
            opened := some { s with written := s.written + 1 } }, .ok ()) := by
      rw [writeRow, hcheck]
    simp only [checkRow, accepts_iff, Prod.mk.injEq] at hcheck
    obtain ⟨s, hopen, hsection, hroom, hvalid, hafter, lim, hlim, enc, henc, hmax, rfl, rfl⟩ :=
      hcheck
    have hone : P.acceptedRow b (.row row) = [(s.sid, row)] := by
      simp [acceptedRow, call, hwrite, hopen]
    rw [hwrite, hone]
    cases h with
    | between sections emitted closed =>
      rw [closed] at hopen
      cases hopen
    | within sections sec declared emitted opened previous positive written all =>
      rw [opened.opened] at hopen
      cases hopen
      obtain ⟨_, hlim', hmax', hfits⟩ := opened.rows
      rw [hlim'] at hlim
      cases hlim
      have hrow : P.RowFits sec.1 lim row := ⟨hsection, hvalid, enc, henc, hmax⟩
      refine .within sections (sec.1, sec.2 ++ [row]) declared
        ⟨emitted.counts, emitted.fits, emitted.ascend, emitted.emitted⟩
        ⟨by simp, opened.previous, opened.legal, opened.promised, ⟨lim, hlim', hmax', ?_⟩, ?_, ?_⟩
        previous positive ?_ ?_
      · exact forall_mem_append.mpr ⟨hfits, forall_mem_singleton.mpr hrow⟩
      · refine opened.ascends.append ?_
        rw [After, ← opened.lastKey]
        exact hafter
      · rw [lastKeyFrom_append]
      · simp [written, rowFrame, henc]
      · simp [all, sectionRows]
    | lost d legal missing passed opened =>
      refine .lost d legal missing passed ?_
      intro s' hs'
      cases hs'
      exact opened s hopen

/-- **What the calls on a writer add up to**, whatever they are and whether they were refused. -/
theorem run_progress (calls : List P.WriterCall) :
    P.Progress header (run call b calls) (rows ++ P.acceptedRows b calls) := by
  induction calls generalizing b rows with
  | nil => simpa [acceptedRows] using h
  | cons c calls ih =>
    have hstep : P.Progress header (call b c).1 (rows ++ P.acceptedRow b c) := by
      cases c with
      | beginSection sid =>
        have hnone : P.acceptedRow b (.beginSection sid) = [] := by
          unfold acceptedRow
          split <;> simp_all
        rw [hnone, append_nil]
        exact beginSection_progress h sid
      | row row => exact writeRow_progress h row
    rw [run_cons, acceptedRows, ← append_assoc]
    exact ih hstep

end

/-- **A writer that finishes has written a body**, of its header and the rows it accepted. -/
theorem finish_wellFormed {calls : List P.WriterCall} (hnew : P.newWriter header = .ok b)
    (hfinish : P.finish (run call b calls) = .ok bytes) :
    ∃ sections, P.WellFormed header sections ∧ bytes = P.bodyBytes header sections ∧
      P.acceptedRows b calls = P.bodyRows sections := by
  obtain ⟨hstart, hprog⟩ := newWriter_progress hnew
  obtain ⟨hclosed, hend⟩ := endSection_progress (run_progress hprog calls)
  unfold finish at hfinish
  generalize endSection (run call b calls) = closing at hclosed hend hfinish
  obtain ⟨_, result⟩ := closing
  cases result with
  | error => cases hfinish
  | ok =>
    simp only [accepts_iff] at hfinish hclosed hend
    obtain ⟨hprofile, rfl⟩ := hfinish
    cases hend with
    | between sections emitted closed previous written all =>
      refine ⟨sections, ⟨hstart, ?_, emitted.ascend, emitted.fits⟩, written, all⟩
      rw [← emitted.emitted]
      exact hprofile
    | within sections sec declared emitted opened =>
      rw [opened.opened] at hclosed
      cases hclosed
    | lost sid legal missing =>
      rw [hprofile] at missing
      exact absurd legal missing

/-! ### Writing a body -/

/-- The calls that write a section. -/
def sectionCalls (P : BodyProfile) (sec : P.Section) : List P.WriterCall :=
  .beginSection sec.1 :: sec.2.map .row

/-- Rows that fit the open section are all written. -/
theorem run_rows {declared : ℕ} (hlim : limits sid = some lim) {rows : List P.Row}
    (hfits : ∀ row ∈ rows, P.RowFits sid lim row) {written : ℕ}
    (hopen : b.opened = some ⟨sid, declared, written⟩) (hascends : P.Ascends b.lastKey rows)
    (hroom : written + rows.length ≤ declared) :
    run call b (rows.map WriterCall.row) =
      { b with
        lastKey := P.lastKeyFrom b.lastKey rows
        w := b.w ++ rows.flatMap P.rowFrame
        opened := some ⟨sid, declared, written + rows.length⟩ } := by
  induction rows generalizing b written with
  | nil =>
    obtain ⟨w, _, _, opened, lastKey, _⟩ := b
    cases hopen
    simp [lastKeyFrom]
  | cons row rows ih =>
    obtain ⟨hsection, hvalid, enc, henc, hmax⟩ := hfits row mem_cons_self
    rw [length_cons] at hroom
    have hcheck : P.checkRow b row = .ok (⟨sid, declared, written⟩, enc) := by
      simp only [checkRow, accepts_iff]
      have hnext : written + 1 ≤ declared := by omega
      exact ⟨_, hopen, hsection, hnext, hvalid, hascends.1, lim, hlim, enc, henc, hmax, rfl⟩
    have hcall : (call b (.row row)).1 =
        { b with
          lastKey := some (P.orderKey row)
          w := b.w ++ frame enc
          opened := some ⟨sid, declared, written + 1⟩ } := by
      rw [call, writeRow, hcheck]
    have hopen' : (call b (.row row)).1.opened = some ⟨sid, declared, written + 1⟩ := by
      rw [hcall]
    have hascends' : P.Ascends (call b (.row row)).1.lastKey rows := by
      rw [hcall]
      exact hascends.2
    have hrest := ih (fun row' hmem => hfits row' (mem_cons_of_mem row hmem)) hopen'
      hascends' (by omega)
    rw [map_cons, run_cons, hrest, hcall]
    simp only [lastKeyFrom, flatMap_cons, rowFrame, henc, Option.getD_some,
      append_assoc, length_cons]
    congr 3
    omega

/-- **Every body can be written**, section after section: what the writer holds once the last one
is closed. -/
theorem run_sections (hfits : ∀ sec ∈ sections, P.SectionFits header sec) {closed : BodyWriter}
    (hclose : endSection b = (closed, .ok ()))
    (hcounts : closed.headerCounts = P.rowCounts header)
    (hascend : P.SectionsAscend closed.previousSection sections) :
    ∃ last, endSection (run call b (sections.flatMap P.sectionCalls)) = (last, .ok ()) ∧
      last.w = closed.w ++ sections.flatMap P.sectionBytes ∧
      last.emitted = closed.emitted ++ sections.map Prod.fst := by
  induction sections generalizing b closed with
  | nil => exact ⟨closed, hclose, by simp, by simp⟩
  | cons sec sections ih =>
    have hsec := hfits sec mem_cons_self
    obtain ⟨lim, hlim, hmax, hrows⟩ := hsec.rows
    have hcheck : P.checkSection closed sec.1 = .ok sec.2.length := by
      simp only [checkSection, accepts_iff]
      exact ⟨Nat.not_le.mpr hascend.1, by simp [hsec.legal], _, hcounts ▸ hsec.declared, lim, hlim,
        hmax, rfl⟩
    have hbegin : (call (P := P) b (.beginSection sec.1)).1 =
        { closed with
          previousSection := sec.1
          lastKey := none
          w := closed.w ++ (writeVarint sec.1 ++ writeVarint sec.2.length)
          opened := some ⟨sec.1, sec.2.length, 0⟩ } := by
      rw [call, beginSection, hclose]
      dsimp only
      rw [hcheck]
    have hopen : (call (P := P) b (.beginSection sec.1)).1.opened =
        some ⟨sec.1, sec.2.length, 0⟩ := by
      rw [hbegin]
    have hascends : P.Ascends (call (P := P) b (.beginSection sec.1)).1.lastKey sec.2 := by
      rw [hbegin]
      exact hsec.ascends
    have hwrote := run_rows hlim hrows hopen hascends (by omega)
    rw [hbegin] at hwrote
    -- the section is complete, so the next call closes it
    have hclose' : endSection (run call b (P.sectionCalls sec)) =
        ({ closed with
            previousSection := sec.1
            lastKey := P.lastKeyFrom none sec.2
            w := closed.w ++ P.sectionBytes sec
            opened := none
            emitted := closed.emitted ++ [sec.1] }, .ok ()) := by
      rw [sectionCalls, run_cons, hbegin, hwrote]
      simp [endSection, sectionBytes]
    obtain ⟨last, hlast, hw, hemitted⟩ := ih
      (fun s hs => hfits s (mem_cons_of_mem sec hs)) hclose' hcounts hascend.2
    refine ⟨last, ?_, ?_, ?_⟩
    · rw [flatMap_cons, run_append]
      exact hlast
    · simp [hw]
    · simp [hemitted]

theorem writeBody_sections (h : P.WellFormed header sections) :
    P.writeBody header (sections.flatMap P.sectionCalls) = .ok (P.bodyBytes header sections) := by
  obtain ⟨enc, henc, hmax⟩ := h.start.encodes
  have hnew : P.newWriter header =
      .ok ⟨frame (P.encodedHeader header), P.rowCounts header, 0, none, none, []⟩ := by
    simp only [newWriter, accepts_iff]
    exact ⟨h.start.valid, enc, henc, hmax, by rw [encodedHeader, henc]; rfl⟩
  obtain ⟨_, hlast, hw, hemitted⟩ := run_sections h.sections
    (b := ⟨frame (P.encodedHeader header), P.rowCounts header, 0, none, none, []⟩) rfl rfl h.ascend
  rw [writeBody, hnew, ok_bind, finish, hlast]
  dsimp only
  rw [hemitted, hw, nil_append, h.profile, bne_self_eq_false]
  rfl

/-! ### The rows say which sections there are -/

/-- The calls that write rows, section after section of the profile. -/
def bodyCalls (P : BodyProfile) (rows : List (ℕ × P.Row)) : List P.WriterCall :=
  P.legalSections.flatMap fun sid =>
    .beginSection sid :: (rows.filter fun row => row.1 == sid).map fun row => .row row.2

theorem SectionsAscend.lt (h : P.SectionsAscend previous sections) :
    ∀ sec ∈ sections, previous < sec.1 := by
  induction sections generalizing previous with
  | nil => simp
  | cons first rest ih =>
    intro sec hsec
    rcases mem_cons.mp hsec with rfl | hsec
    · exact h.1
    · exact Nat.lt_trans h.1 (ih h.2 sec hsec)

/-- The rows under an id are those of its section. -/
theorem filter_bodyRows (h : P.SectionsAscend previous sections) (hsec : sec ∈ sections) :
    ((P.bodyRows sections).filter fun row => row.1 == sec.1) = P.sectionRows sec := by
  have hother : ∀ s : P.Section, s.1 ≠ sec.1 →
      ((P.sectionRows s).filter fun row => row.1 == sec.1) = [] := by
    intro s hne
    simp [sectionRows, filter_eq_nil_iff, hne]
  have hown : ((P.sectionRows sec).filter fun row => row.1 == sec.1) = P.sectionRows sec := by
    simp [sectionRows, filter_eq_self]
  induction sections generalizing previous with
  | nil => simp at hsec
  | cons first rest ih =>
    rw [bodyRows, flatMap_cons, filter_append]
    rcases mem_cons.mp hsec with rfl | hmem
    · have hrest : ((rest.flatMap P.sectionRows).filter fun row => row.1 == sec.1) = [] := by
        rw [filter_flatMap, flatMap_eq_nil_iff]
        exact fun s hs => hother s (Nat.ne_of_gt (h.2.lt s hs))
      rw [hown, hrest, append_nil]
    · rw [hother first (Nat.ne_of_lt (h.2.lt sec hmem)), nil_append]
      exact ih h.2 hmem

theorem bodyCalls_bodyRows (h : P.WellFormed header sections) :
    P.bodyCalls (P.bodyRows sections) = sections.flatMap P.sectionCalls := by
  rw [bodyCalls, ← h.profile, flatMap_map]
  refine flatMap_congr fun sec hsec => ?_
  rw [filter_bodyRows h.ascend hsec, sectionCalls, sectionRows, map_map]
  rfl

/-! ### One encoding -/

/-- The visitor that keeps the header and every row with its section. -/
def record (P : BodyProfile) : BodyVisitor P (Option P.Header × List (ℕ × P.Row)) where
  header := fun s header => .ok (some header, s.2)
  row := fun s sid row => .ok (s.1, s.2 ++ [(sid, row)])

theorem visitRows_record (s : Option P.Header × List (ℕ × P.Row)) (rows : List (ℕ × P.Row)) :
    visitRows P.record s rows = .ok (s.1, s.2 ++ rows) := by
  induction rows generalizing s with
  | nil => simp [visitRows]
  | cons row rest ih =>
    have hrow : P.record.row s row.1 row.2 = .ok (s.1, s.2 ++ [row]) := rfl
    rw [visitRows, hrow, ok_bind, ih, append_assoc]
    rfl

/-- **Bodies of a kind have one encoding each.** -/
structure Canonical (P : BodyProfile) : Prop where
  /-- Whatever was called on a writer: if it finished, then every visitor is shown the writer's
  header and the rows it accepted, in order and up to the visitor's own refusal. -/
  reads : ∀ (header : P.Header) (b : BodyWriter) (calls : List P.WriterCall) (bytes : Bytes),
    P.newWriter header = .ok b → P.finish (run call b calls) = .ok bytes →
      ∀ {σ : Type} (v : BodyVisitor P σ) (s : σ),
        readBody v s bytes = visitBody v s header (P.acceptedRows b calls)
  /-- What the reader accepts is what a writer writes for the header and the rows read. -/
  exact : ∀ (bytes : Bytes) (header : P.Header) (rows : List (ℕ × P.Row)),
    readBody P.record (none, []) bytes = .ok (some header, rows) →
      P.writeBody header (P.bodyCalls rows) = .ok bytes
  /-- The reader always finds a header. -/
  found : ∀ (bytes : Bytes) (read : Option P.Header × List (ℕ × P.Row)),
    readBody P.record (none, []) bytes = .ok read → read.1.isSome = true
  /-- So two bodies with the same header and the same rows are the same bytes. -/
  unique : ∀ (bytes bytes' : Bytes) (read : Option P.Header × List (ℕ × P.Row)),
    readBody P.record (none, []) bytes = .ok read →
      readBody P.record (none, []) bytes' = .ok read → bytes = bytes'

/-- What the recording visitor reads off the bytes of a body. -/
theorem readBody_record (hround : P.RoundTrips) {read : Option P.Header × List (ℕ × P.Row)}
    (h : readBody P.record (none, []) bytes = .ok read) :
    ∃ header sections, P.WellFormed header sections ∧ bytes = P.bodyBytes header sections ∧
      read = (some header, P.bodyRows sections) := by
  obtain ⟨header, sections, hbody, rfl⟩ := readBody_exact P.record hround h
  refine ⟨header, sections, hbody, rfl, ?_⟩
  have hhead : P.record.header (none, []) header = .ok (some header, []) := rfl
  rw [readBody_bytes P.record hround hbody, visitBody, hhead, ok_bind, visitRows_record] at h
  exact (Except.ok.inj h).symm

theorem canonical_of_roundTrips (hround : P.RoundTrips) : P.Canonical := by
  have hexact : ∀ (bytes : Bytes) (header : P.Header) (rows : List (ℕ × P.Row)),
      readBody P.record (none, []) bytes = .ok (some header, rows) →
        P.writeBody header (P.bodyCalls rows) = .ok bytes := by
    intro bytes header rows h
    obtain ⟨header, sections, hbody, rfl, hread⟩ := readBody_record hround h
    cases hread
    rw [bodyCalls_bodyRows hbody]
    exact writeBody_sections hbody
  constructor
  · intro header b calls bytes hnew hfinish σ v s
    obtain ⟨sections, hbody, rfl, hrows⟩ := finish_wellFormed hnew hfinish
    rw [readBody_bytes v hround hbody, hrows]
  · exact hexact
  · intro bytes read h
    obtain ⟨header, sections, -, -, rfl⟩ := readBody_record hround h
    rfl
  · intro bytes bytes' read h h'
    obtain ⟨header, _, -, -, rfl⟩ := readBody_record hround h
    have hwrite := hexact bytes header _ h
    rw [hexact bytes' header _ h'] at hwrite
    cases hwrite
    rfl

end BodyProfile

/-- The stream's codecs read back what they wrote. -/
structure StreamCodecs.RoundTrip (codecs : StreamCodecs) : Prop where
  snapshotHeader : codecs.snapshotHeader.RoundTrips
  snapshotRow : codecs.snapshotRow.RoundTrips
  recoveryHeader : codecs.recoveryHeader.RoundTrips
  recoveryRow : codecs.recoveryRow.RoundTrips

/-- **Snapshot and recovery bodies have exactly one encoding.**  A finished writer's bytes are read
back as the header and the rows it accepted, and bytes that are read are those a writer writes for
what was read. -/
theorem bodies_have_one_encoding :
    ∀ codecs : StreamCodecs, codecs.RoundTrip →
      (snapshotProfile codecs).Canonical ∧ (recoveryProfile codecs).Canonical := by
  intro codecs hround
  exact ⟨BodyProfile.canonical_of_roundTrips ⟨hround.snapshotHeader, hround.snapshotRow⟩,
    BodyProfile.canonical_of_roundTrips ⟨hround.recoveryHeader, hround.recoveryRow⟩⟩

/-! ### A small export -/

namespace Sample

/-- The header of an export of one administrator. -/
def exportHeader : RecoveryHeaderV1 where
  formatVersion := recoveryFormatVersion
  schemaVersion := recoverySchemaVersion
  sourceGroupId := replicate 32 1
  sourceGenesisHash := replicate 32 2
  sourceAuthorityPublicKey := replicate 32 3
  sourceAuthorityDomain := [100]
  sourceLastApplied := none
  sourceMembership := ⟨none, ⟨[], []⟩⟩
  sourceAuditFloor := none
  sourceAuditTip := none
  sourceAdminRevision := 1
  rowCounts := ⟨0, 0, 1, 0, 0, 0, 0⟩

/-- A codec of one value. -/
def oneValue {α : Type} [DecidableEq α] (value : α) : ForyCodec α :=
  ⟨fun x => if x = value then some [1] else none, fun _ => some value⟩

theorem oneValue_roundTrips {α : Type} [DecidableEq α] (value : α) :
    (oneValue value).RoundTrips := by
  intro x bytes h
  simp only [oneValue] at h ⊢
  split_ifs at h with hx
  rw [hx]

def exportRow : RecoveryBodyRowV1 := .admin ⟨replicate 32 4⟩

/-- Stand-ins for the Fory runtimes: each knows one value. -/
def streamCodecs : StreamCodecs where
  snapshotHeader := oneValue ⟨snapshotFormatVersion, logicalSchemaVersion, metaToWire state,
    ⟨0, 0, 1, 0, 0, 0, 0⟩⟩
  snapshotRow := oneValue (.admin ⟨replicate 32 4⟩)
  recoveryHeader := oneValue exportHeader
  recoveryRow := oneValue exportRow

theorem streamCodecs_roundTrip : streamCodecs.RoundTrip :=
  ⟨oneValue_roundTrips _, oneValue_roundTrips _, oneValue_roundTrips _, oneValue_roundTrips _⟩

end Sample

open Sample

theorem bodies_have_one_encoding_small :
    (recoveryProfile streamCodecs).writeBody exportHeader
        [.beginSection 1, .beginSection 2, .beginSection 3, .row exportRow] =
      .ok [1, 1, 1, 0, 2, 0, 3, 1, 1, 1] ∧
    (snapshotProfile streamCodecs).Canonical ∧ (recoveryProfile streamCodecs).Canonical :=
  ⟨by decide +kernel, bodies_have_one_encoding streamCodecs streamCodecs_roundTrip⟩

end AsterRpc.Coordination
