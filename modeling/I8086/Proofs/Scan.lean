import I8086.Proofs.Stream

/-!
# Where items stand

`Item.scan` lists the items of a stream with the offsets of their first byte and of the byte after
them, and stops where the decoding pass stops. Main statements: `Item.scan_join`, a row of tiles is
scanned tile by tile; `scan_join_ends`, nothing is scanned after it.
-/

namespace I8086

open Reader

/-- An item of a stream between two offsets. -/
structure Placed where
  /-- The offset of the first byte. -/
  start : Nat
  /-- The offset of the byte after the last one. -/
  stop : Nat
  /-- The item. -/
  item : Item

/-- The items from a cursor on, up to the end or to bytes that are no item. -/
def Item.scan (c : Cursor) : List Placed :=
  if c.atEnd then []
  else
    match _h : Item.reader.run c with
    | .ok (.ok item, d) => ⟨c.position, d.position, item⟩ :: scan d
    | _ => []
termination_by c.rest.length
decreasing_by exact Reader.length_rest_lt _h

/-- The items of a stream. -/
def scan (bytes : List UInt8) : List Placed :=
  Item.scan (.ofBytes bytes)

/-- A row of tiles, the first of which stands at an offset. -/
def Tile.place : Nat → List Tile → List Placed
  | _, [] => []
  | p, t :: ts => ⟨p, p + t.bytes.length, t.item⟩ :: place (p + t.bytes.length) ts

/-- Placing tiles keeps their items. -/
@[simp] lemma Tile.map_item_place (p : Nat) (ts : List Tile) :
    (place p ts).map Placed.item = ts.map Tile.item := by
  induction ts generalizing p with
  | nil => rfl
  | cons t ts ih => exact congrArg (t.item :: ·) (ih _)

namespace Item

variable {p : Nat} {rest : List UInt8}

/-- Scanning takes the first tile. -/
lemma scan_tile (t : Tile) :
    scan ⟨p, t.bytes ++ rest⟩ =
      ⟨p, p + t.bytes.length, t.item⟩ :: scan ⟨p + t.bytes.length, rest⟩ := by
  have hr := t.reads.run p rest
  rw [scan, if_neg (by simpa [Cursor.atEnd] using fun h => (t.bytes_ne_nil h).elim)]
  split
  · next h =>
    cases h.symm.trans hr
    rfl
  · next h => exact (h _ _ hr).elim

/-- Scanning takes the tiles in front. -/
theorem scan_join (ts : List Tile) :
    scan ⟨p, Tile.join ts ++ rest⟩ =
      Tile.place p ts ++ scan ⟨p + (Tile.join ts).length, rest⟩ := by
  induction ts generalizing p with
  | nil => rfl
  | cons t ts ih =>
    rw [Tile.join_cons, List.append_assoc, scan_tile, ih, List.length_append, Nat.add_assoc]
    rfl

/-- Nothing is scanned where no tile can be laid. -/
lemma scan_of_ends (he : Ends rest) : scan ⟨p, rest⟩ = [] := by
  rw [scan]
  cases he with
  | stop => rfl
  | waits hrest wt =>
    rw [if_neg (by simpa [Cursor.atEnd] using hrest)]
    split
    · next h => cases h.symm.trans (wt.run p)
    · rfl
  | unsupported more rd =>
    rw [if_neg (by simpa [Cursor.atEnd] using fun h => (ne_nil_of_reads rd h).elim)]
    split
    · next h => cases h.symm.trans (rd.run p more)
    · rfl

end Item

/-- A stream is scanned as its row of tiles. -/
theorem scan_join_ends {rest : List UInt8} (ts : List Tile) (he : Ends rest) :
    scan (Tile.join ts ++ rest) = Tile.place 0 ts := by
  unfold scan Cursor.ofBytes
  rw [Item.scan_join, Item.scan_of_ends he, List.append_nil]

/-- A row of tiles is scanned as it is. -/
theorem scan_join (ts : List Tile) : scan (Tile.join ts) = Tile.place 0 ts := by
  simpa using scan_join_ends ts .stop

end I8086
