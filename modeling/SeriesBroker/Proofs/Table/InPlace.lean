import Mathlib.Algebra.GroupWithZero.Nat
import SeriesBroker.Shape.Table

/-! # The table, made in place

    The join says what a table holds. To make it in place, the series are kept in one list that
    is cut behind the one that is emptied, rows are taken out of series by their places, and the
    cells of a row are overwritten one by one from the offset of their request on. Here the table
    is made like this. Each access by a number is checked and stops everything if it is out of
    range, and each row remembers which of its cells were written for which request.

    Key idea: a row is filled from left to right. After some requests it has their blocks and
    nothing but nulls behind them (`Filled`), so the offset of the next request is where the
    blocks end, and its cells fit in (`Filled.add`).
-/

namespace SeriesBroker.Table

/-! ### Checked accesses -/

/-- Why no table is made. -/
inductive Halt where
  /-- An access was out of range. -/
  | stray (place size : Nat)
  /-- The results have no table. -/
  | unshaped (error : ShapeError)
  deriving DecidableEq

section accesses

variable {α : Type}

/-- The item at a place. -/
def fetch (items : List α) (place : Nat) : Except Halt α :=
  match items[place]? with
  | some item => .ok item
  | none => .error (.stray place items.length)

/-- Overwrite the item at a place. -/
def put (items : List α) (place : Nat) (item : α) : Except Halt (List α) :=
  if place < items.length then .ok (items.set place item)
  else .error (.stray place items.length)

/-- Take the item at a place out. Those behind it move up. -/
def takeOut (items : Array α) (place : Nat) : Except Halt (α × Array α) :=
  match items[place]? with
  | some item => .ok (item, items.eraseIdxIfInBounds place)
  | none => .error (.stray place items.size)

/-- Cut items before a place, which may be their end. -/
def cut (items : List α) (place : Nat) : Except Halt (List α × List α) :=
  if place ≤ items.length then .ok (items.take place, items.drop place)
  else .error (.stray place items.length)

theorem fetch_eq_ok {items : List α} {place : Nat} {item : α} (h : items[place]? = some item) :
    fetch items place = .ok item := by
  rw [fetch, h]

theorem cut_append (front back : List α) :
    cut (front ++ back) front.length = .ok (front, back) := by
  simp [cut]

end accesses

/-! ### Rows that are written -/

/-- A cell that was written, and the number of the request that it was written for. -/
structure Write where
  request : Nat
  place : Nat
  deriving DecidableEq

/-- A row of the table while it is made. -/
structure Draft where
  instant : Instant
  cells : Row
  /-- All writes but that of the timestamp, in order. -/
  writes : List Write
  deriving DecidableEq

namespace Draft

/-- A row of nulls. -/
def blank (width : Nat) (t : Instant) : Draft := ⟨t, List.replicate width .null, []⟩

def write (request place : Nat) (cell : Scalar) (d : Draft) : Except Halt Draft := do
  let cells ← put d.cells place cell
  pure { d with cells, writes := d.writes ++ [⟨request, place⟩] }

/-- Write cells one by one, the first of them at a place. -/
def writeFrom (request place : Nat) : List Scalar → Draft → Except Halt Draft
  | [], d => .ok d
  | cell :: cells, d => do
    let d ← d.write request place cell
    writeFrom request (place + 1) cells d

/-- Write the cells of a request from its offset on, as many as it has columns at most. -/
def add (requests : List Request) (offsets : List Nat) (number : Nat) (cells : List Scalar)
    (d : Draft) : Except Halt Draft := do
  let offset ← fetch offsets number
  let request ← fetch requests number
  d.writeFrom number offset (cells.take request.columns.length)

def stamp (d : Draft) : Except Halt Draft := do
  let cells ← put d.cells 0 (.string (Timestamp.toText d.instant))
  pure { d with cells }

/-- Whether a row is at least as new as another. -/
def newerOrSame (a b : Draft) : Bool := !a.instant.before b.instant

end Draft

/-! ### The loops -/

section loops

variable (requests : List Request) (offsets : List Nat) (width : Nat)

/-- Let a later series add its first row of the instant, if the place where the search ends has
    one. -/
def joinSeries (number : Nat) (other : Array TimedRow) (d : Draft) :
    Except Halt (Draft × Array TimedRow) :=
  let place := partitionPoint (fun row => d.instant.before row.instant) other
  match other[place]? with
  | some row =>
    if row.instant = d.instant then do
      let (matched, other) ← takeOut other place
      let d ← d.add requests offsets number matched.cells
      pure (d, other)
    else pure (d, other)
  | none => pure (d, other)

/-- Let all later series add their rows, the first of them being number `number`. -/
def joinLater (number : Nat) : List (Array TimedRow) → Draft →
    Except Halt (Draft × List (Array TimedRow))
  | [], d => .ok (d, [])
  | other :: others, d => do
    let (d, other) ← joinSeries requests offsets number other d
    let (d, others) ← joinLater (number + 1) others d
    pure (d, other :: others)

/-- Make a row of the table of each row of series number `number`. -/
def drawRows (number : Nat) : List TimedRow → List (Array TimedRow) →
    Except Halt (List Draft × List (Array TimedRow))
  | [], later => .ok ([], later)
  | row :: rows, later => do
    let d ← (Draft.blank width row.instant).add requests offsets number row.cells
    let (d, later) ← joinLater requests offsets (number + 1) later d
    let (drafts, later) ← drawRows number rows later
    pure (d :: drafts, later)

/-- Empty `count` series in turn, the first of them being number `number`. -/
def drawFrom : (count number : Nat) → List (Array TimedRow) → Except Halt (List Draft)
  | 0, _, _ => .ok []
  | count + 1, number, series => do
    let (head, later) ← cut series (number + 1)
    let rows ← fetch head number
    let (drafts, later) ← drawRows requests offsets width number rows.toList later
    let rest ← drawFrom count (number + 1) (head.set number #[] ++ later)
    pure (drafts ++ rest)

end loops

/-- The offsets of requests, the first of them being `offset`, and where the last one ends. -/
def layout (offset : Nat) : List Request → List Nat × Nat
  | [] => ([], offset)
  | request :: rest =>
    let (offsets, width) := layout (offset + request.columns.length) rest
    (offset :: offsets, width)

/-- Make the table of a batch. The timestamp stands before all blocks. -/
def drawTable (requests : List Request) (data : List (List Row)) : Except Halt (List Draft) :=
  if requests.length ≠ data.length then
    .error (.unshaped (.statementCount requests.length data.length))
  else
    match timedFrom 0 data with
    | .error error => .error (.unshaped error)
    | .ok series => do
      let (offsets, width) := layout 1 requests
      let drafts ← drawFrom requests offsets width series.length 0 series
      (drafts.mergeSort Draft.newerOrSame).mapM Draft.stamp

/-! ### Blocks -/

/-- The numbers of columns of requests. -/
def widths (requests : List Request) : List Nat := requests.map (·.columns.length)

/-- Where the block of a request begins: behind the timestamp and the blocks before it. -/
def blockStart (requests : List Request) (number : Nat) : Nat :=
  1 + (widths (requests.take number)).sum

/-- A write for a request inside its block. -/
def Write.Inside (requests : List Request) (w : Write) : Prop :=
  ∃ request, requests[w.request]? = some request ∧ blockStart requests w.request ≤ w.place ∧
    w.place < blockStart requests w.request + request.columns.length

theorem length_block (width : Nat) (part : Option TimedRow) :
    (block width part).length = width := by
  cases part with
  | none => simp [block]
  | some row =>
    rw [block, List.rightpad, List.length_append, List.length_replicate, List.length_take]
    omega

theorem length_flatten_block (ws : List Nat) (parts : List (Option TimedRow))
    (h : ws.length = parts.length) : (List.zipWith block ws parts).flatten.length = ws.sum := by
  induction ws generalizing parts with
  | nil => simp
  | cons w ws ih =>
    cases parts with
    | nil => simp at h
    | cons part parts =>
      have hrest : ws.length = parts.length := by simpa using h
      simp [length_block, ih parts hrest]

/-- The offset of a request is where its block begins. -/
theorem layout_fst (offset : Nat) (before : List Request) (request : Request)
    (after : List Request) :
    (layout offset (before ++ request :: after)).1[before.length]? =
      some (offset + (widths before).sum) := by
  induction before generalizing offset with
  | nil => simp [layout, widths]
  | cons first before ih =>
    have hrest := ih (offset + first.columns.length)
    simp [layout, widths] at hrest ⊢
    rw [hrest]
    simp [Nat.add_assoc]

theorem layout_snd (offset : Nat) (requests : List Request) :
    (layout offset requests).2 = offset + (widths requests).sum := by
  induction requests generalizing offset with
  | nil => simp [layout, widths]
  | cons first requests ih =>
    have hrest := ih (offset + first.columns.length)
    simp [layout, widths] at hrest ⊢
    rw [hrest]
    omega

/-! ### Writing a block -/

/-- Writing replaces as many cells as there are to write, and notes each of them. -/
theorem writeFrom_eq (request : Nat) (front old rest cells : List Scalar) (d : Draft)
    (hcells : d.cells = front ++ old ++ rest) (hlength : old.length = cells.length) :
    ∃ writes, d.writeFrom request front.length cells =
        .ok { d with cells := front ++ cells ++ rest, writes := d.writes ++ writes } ∧
      ∀ w ∈ writes, w.request = request ∧ front.length ≤ w.place ∧
        w.place < front.length + cells.length := by
  induction cells generalizing front old d with
  | nil =>
    have hold : old = [] := List.length_eq_zero_iff.1 hlength
    refine ⟨[], ?_, by simp⟩
    rw [hold] at hcells
    rw [Draft.writeFrom, List.append_nil d.writes, ← hcells]
  | cons cell cells ih =>
    cases old with
    | nil => simp at hlength
    | cons first old =>
      have hput : put d.cells front.length cell = .ok (front ++ cell :: old ++ rest) := by
        rw [put, hcells]
        simp
      let next : Draft :=
        ⟨d.instant, front ++ cell :: old ++ rest, d.writes ++ [⟨request, front.length⟩]⟩
      have hwrite : d.write request front.length cell = .ok next := by
        rw [Draft.write, hput]
        rfl
      -- The cell that was written belongs to the front from now on.
      obtain ⟨writes, heq, hwrites⟩ :=
        ih (front ++ [cell]) old next (by simp [next]) (by simpa using hlength)
      refine ⟨⟨request, front.length⟩ :: writes, ?_, ?_⟩
      · rw [Draft.writeFrom, hwrite]
        show next.writeFrom request (front.length + 1) cells = _
        simpa [next] using heq
      · intro w hw
        rcases List.mem_cons.1 hw with rfl | hw
        · simp
        · have hplace := hwrites w hw
          simp at hplace ⊢
          omega

/-- Behind the end of a row there is nothing to replace. -/
example (t : Instant) : (Draft.blank 2 t).writeFrom 0 1 [.bool true, .bool false] =
    .error (.stray 2 2) := rfl

/-! ### Rows filled from left to right -/

/-- A row after some of the requests: it has their blocks, what is behind them is null, and no
    write has left its block. -/
structure Filled (requests done rest : List Request) (parts : List (Option TimedRow)) (d : Draft) :
    Prop where
  whole : requests = done ++ rest
  length : done.length = parts.length
  cells : d.cells = .null :: (List.zipWith block (widths done) parts).flatten ++
    List.replicate (widths rest).sum .null
  inside : ∀ w ∈ d.writes, w.Inside requests

/-- A row of nulls is filled with the blocks of requests that have no part in it. -/
theorem filled_blank {requests done rest : List Request} (hwhole : requests = done ++ rest)
    (t : Instant) : Filled requests done rest (List.replicate done.length none)
      (Draft.blank (1 + (widths requests).sum) t) where
  whole := hwhole
  length := by simp
  cells := by
    -- Blocks without a part are nulls.
    have hblocks : ∀ requests : List Request,
        (List.zipWith block (widths requests) (List.replicate requests.length none)).flatten =
          List.replicate (widths requests).sum .null := by
      intro requests
      induction requests with
      | nil => rfl
      | cons request requests ih =>
        simp [widths, List.replicate_succ, block] at ih ⊢
        rw [ih, List.replicate_append_replicate]
    rw [hblocks, hwhole, Draft.blank, Nat.add_comm, List.replicate_succ, List.cons_append,
      List.replicate_append_replicate, widths, List.map_append, List.sum_append]
    rfl
  inside := by simp [Draft.blank]

section filling

variable {requests done rest : List Request} {request : Request}
  {parts : List (Option TimedRow)} {d : Draft}

/-- The blocks of a filled row end where that of the next request begins. -/
theorem Filled.length_front (h : Filled requests done (request :: rest) parts d) :
    (Scalar.null :: (List.zipWith block (widths done) parts).flatten).length =
      blockStart requests done.length := by
  have hlength : (widths done).length = parts.length := by simpa [widths] using h.length
  rw [List.length_cons, length_flatten_block _ _ hlength, blockStart, h.whole,
    List.take_left' rfl, Nat.add_comm]

/-- **One more request.** With the block of the next request behind the others, and no other
    writes than inside of it, a row is filled one step further. -/
theorem Filled.next (h : Filled requests done (request :: rest) parts d) {part : Option TimedRow}
    {d' : Draft}
    (hcells : d'.cells = .null :: (List.zipWith block (widths done) parts).flatten ++
      block request.columns.length part ++ List.replicate (widths rest).sum .null)
    (hwrites : ∀ w ∈ d'.writes, w ∈ d.writes ∨ w.request = done.length ∧
      blockStart requests done.length ≤ w.place ∧
      w.place < blockStart requests done.length + request.columns.length) :
    Filled requests (done ++ [request]) rest (parts ++ [part]) d' where
  whole := by rw [h.whole, List.append_cons]
  length := by simp [h.length]
  cells := by
    have hlength : (widths done).length = parts.length := by simpa [widths] using h.length
    have hwidths : widths (done ++ [request]) = widths done ++ [request.columns.length] := by
      simp [widths]
    rw [hcells, hwidths, List.zipWith_append hlength]
    simp
  inside := by
    intro w hw
    rcases hwrites w hw with hold | ⟨hrequest, hbounds⟩
    · exact h.inside w hold
    · refine ⟨request, ?_, by rw [hrequest]; exact hbounds⟩
      rw [hrequest, h.whole]
      simp

/-- A request that has no part in the row leaves its block as it is. -/
theorem Filled.skip (h : Filled requests done (request :: rest) parts d) :
    Filled requests (done ++ [request]) rest (parts ++ [none]) d := by
  refine h.next ?_ fun w hw => .inl hw
  have hsum : (widths (request :: rest)).sum = request.columns.length + (widths rest).sum := rfl
  rw [h.cells, hsum, ← List.replicate_append_replicate, ← List.append_assoc]
  rfl

/-- The cells of a request are written into its block. -/
theorem Filled.add (h : Filled requests done (request :: rest) parts d) (row : TimedRow) :
    ∃ d', d.add requests (layout 1 requests).1 done.length row.cells = .ok d' ∧
      d'.instant = d.instant ∧
      Filled requests (done ++ [request]) rest (parts ++ [some row]) d' := by
  have hoffset : fetch (layout 1 requests).1 done.length =
      .ok (blockStart requests done.length) := by
    have htake : requests.take done.length = done := by rw [h.whole, List.take_left' rfl]
    have hget : (layout 1 requests).1[done.length]? = some (1 + (widths done).sum) := by
      rw [h.whole]
      exact layout_fst 1 done request rest
    rw [fetch_eq_ok hget, blockStart, htake]
  have hrequest : fetch requests done.length = .ok request := fetch_eq_ok (by simp [h.whole])
  -- The block is null so far: as many cells as are written now, and those that stay null.
  have hcells : d.cells = (.null :: (List.zipWith block (widths done) parts).flatten) ++
      List.replicate (row.cells.take request.columns.length).length .null ++
      (List.replicate (request.columns.length - (row.cells.take request.columns.length).length)
        .null ++ List.replicate (widths rest).sum .null) := by
    have hsum : (widths (request :: rest)).sum = request.columns.length + (widths rest).sum := rfl
    have hle : (row.cells.take request.columns.length).length ≤ request.columns.length :=
      List.length_take_le _ _
    rw [h.cells, hsum, List.append_assoc, List.replicate_append_replicate,
      List.replicate_append_replicate]
    congr 2
    omega
  obtain ⟨writes, hwritten, hwrites⟩ :=
    writeFrom_eq done.length _ _ _ (row.cells.take request.columns.length) d hcells (by simp)
  rw [h.length_front] at hwritten hwrites
  have hadd : d.add requests (layout 1 requests).1 done.length row.cells =
      d.writeFrom done.length (blockStart requests done.length)
        (row.cells.take request.columns.length) := by
    rw [Draft.add, hoffset, hrequest]
    rfl
  rw [← hadd] at hwritten
  refine ⟨_, hwritten, rfl, h.next ?_ ?_⟩
  · simp [block, List.rightpad]
  · intro w hw
    rcases List.mem_append.1 hw with hw | hw
    · exact .inl hw
    · have hle : (row.cells.take request.columns.length).length ≤ request.columns.length :=
        List.length_take_le _ _
      obtain ⟨hnumber, hlow, hhigh⟩ := hwrites w hw
      exact .inr ⟨hnumber, hlow, by omega⟩

end filling

end SeriesBroker.Table
