import Mathlib.Data.List.Basic
import Reckoner.Terminal.Panel

/-! # Rows and boxes, cell by cell

A line that is laid into a row shows its glyphs from the left end on, as far as they have
room. Around a panel a box puts one row above and below and one column on each side. Where
no style sets a background, no cell has one. -/

namespace Reckoner.Terminal

variable {width height : Nat} {base style : Style} {row : Row}

/-! ## Glyphs in a row -/

theorem columns_append (front back : List Glyph) :
    columns (front ++ back) = columns front + columns back := by
  induction front with
  | nil => exact (Nat.zero_add _).symm
  | cons glyph front ih => rw [List.cons_append, columns, ih, columns, Nat.add_assoc]

/-- Glyphs at the front of a span are taken when they fit. -/
theorem clipSpan_append {front : List Glyph} (hfits : columns front ≤ width) (back : List Glyph) :
    clipSpan width (front ++ back) = front ++ clipSpan (width - columns front) back := by
  induction front generalizing width with
  | nil => rfl
  | cons glyph front ih =>
      rw [columns] at hfits
      rw [List.cons_append, clipSpan, if_neg (by omega), ih (by omega), columns, Nat.sub_add_eq,
        List.cons_append]

/-- So are glyphs at the front of several spans. -/
theorem prefix_clipSpans {spans : List Span} {front back : List Glyph}
    (hspans : spans.flatMap Span.glyphs = front ++ back) (hfits : columns front ≤ width) :
    front <+: clipSpans width spans := by
  induction spans generalizing width front with
  | nil =>
      obtain ⟨rfl, -⟩ := List.append_eq_nil_iff.mp hspans.symm
      exact List.nil_prefix
  | cons span rest ih =>
      rw [List.flatMap_cons] at hspans
      obtain ⟨more, hfront, hrest⟩ | ⟨more, hspan, -⟩ := List.append_eq_append_iff.mp hspans
      · -- the front reaches beyond the first span, which is taken whole
        rw [hfront, columns_append] at hfits
        have hwhole : clipSpan width (span.glyphs ++ []) = span.glyphs ++ [] :=
          clipSpan_append (by omega) []
        rw [List.append_nil] at hwhole
        rw [clipSpans, hwhole, hfront]
        exact List.prefix_append_right_inj _ |>.mpr (ih hrest (by omega))
      · rw [clipSpans, hspan, clipSpan_append hfits, List.append_assoc]
        exact List.prefix_append _ _

theorem length_ofGlyph (base : Style) (glyph : Glyph) :
    (Row.ofGlyph base glyph).length = glyph.width := by
  unfold Row.ofGlyph
  split <;> simp_all [Row.blank]

theorem length_flatMap_ofGlyph (base : Style) (glyphs : List Glyph) :
    (glyphs.flatMap (Row.ofGlyph base)).length = columns glyphs := by
  induction glyphs with
  | nil => rfl
  | cons glyph rest ih =>
      rw [List.flatMap_cons, List.length_append, length_ofGlyph, ih, columns]

@[simp] theorem length_ofGlyphs (width : Nat) (base : Style) (offset : Nat) (glyphs : List Glyph) :
    (Row.ofGlyphs width base offset glyphs).length = width := by
  simp only [Row.ofGlyphs, List.length_take, List.length_append, Row.blank, List.length_replicate]
  omega

@[simp] theorem length_listRow (width : Nat) (spans : List Span) :
    (listRow width spans).length = width :=
  length_ofGlyphs _ _ _ _

/-- A line of a list shows its glyphs from the left end on, as far as they fit. -/
theorem prefix_listRow {spans : List Span} {front back : List Glyph}
    (hspans : spans.flatMap Span.glyphs = front ++ back) (hfits : columns front ≤ width) :
    front.flatMap (Row.ofGlyph .plain) <+: listRow width spans := by
  obtain ⟨more, hclip⟩ := prefix_clipSpans hspans hfits
  rw [listRow, Row.ofGlyphs, List.prefix_take_iff, length_flatMap_ofGlyph, ← hclip,
    List.flatMap_append]
  refine ⟨?_, hfits⟩
  simp only [Row.blank, List.replicate_zero, List.nil_append, List.append_assoc]
  exact List.prefix_append _ _

/-! ## What is sent of a row -/

theorem sentFrom_append (covered : Bool) (left right : Row) :
    ∃ next, Row.sentFrom covered (left ++ right) =
      Row.sentFrom covered left ++ Row.sentFrom next right := by
  induction left generalizing covered with
  | nil => exact ⟨covered, rfl⟩
  | cons cell left ih =>
      obtain ⟨next, hnext⟩ := ih (1 < Unicode.width cell.chars)
      exact ⟨next, by rw [List.cons_append, Row.sentFrom, hnext, Row.sentFrom, List.cons_append]⟩

theorem prefix_sent {left row : Row} (h : left <+: row) : left.sent <+: row.sent := by
  obtain ⟨right, rfl⟩ := h
  obtain ⟨next, hnext⟩ := sentFrom_append false left right
  rw [Row.sent, Row.sent, hnext]
  exact List.prefix_append _ _

/-- What a row shows of a line in a style: the glyphs from the left end on, as far as they
fit. -/
def Row.Shows (row : Row) (style : Style) (line : List Span) : Prop :=
  ∀ front back, line.flatMap Span.glyphs = front ++ back → columns front ≤ row.length →
    Row.sent (Row.restyle style (front.flatMap (Row.ofGlyph .plain))) <+: row

theorem shows_listRow (width : Nat) (style : Style) (line : List Span) :
    (Row.restyle style (listRow width line)).sent.Shows style line := by
  intro front back hline hfits
  rw [Row.sent, Row.length_sentFrom, Row.restyle, List.length_map, length_listRow] at hfits
  exact prefix_sent ((prefix_listRow hline hfits).map _)

/-! ## Boxes -/

namespace Box

variable {box : Box} {inner : Panel}

theorem length_ofRows (width height : Nat) (base : Style) (rows : List Row) :
    (Panel.ofRows width height base rows).length = height := by
  simp only [Panel.ofRows, List.length_take, List.length_append, List.length_replicate]
  omega

theorem length_around (box : Box) (width height : Nat) (inner : Panel) :
    (box.around width height inner).length = height := by
  unfold around
  split
  · rfl
  · rfl
  · simp [length_ofRows]

/-- A row inside stands between the borders, one row further down. -/
theorem getElem?_around (box : Box) {place : Nat} (hrow : inner[place]? = some row)
    (hplace : place + 2 < height) (hwidth : 2 ≤ width) :
    ∃ left right : Cell, left.chars = [box.border.vertical] ∧
      (box.around width height inner)[place + 1]? = some (left :: row ++ [right]) := by
  obtain ⟨inside, rfl⟩ : ∃ inside, height = inside + 2 := ⟨height - 2, by omega⟩
  obtain ⟨columns, rfl⟩ : ∃ columns, width = columns + 2 := ⟨width - 2, by omega⟩
  have hlt : place < inner.length := (List.getElem?_eq_some_iff.mp hrow).1
  have hinside : (Panel.ofRows (columns + 2 - 2) inside box.base inner)[place]? = some row := by
    rw [Panel.ofRows, List.getElem?_take_of_lt (by omega), List.getElem?_append_left hlt, hrow]
  refine ⟨⟨[box.border.vertical], box.base.patch box.borderStyle⟩,
    ⟨[box.border.vertical], box.base.patch box.borderStyle⟩, rfl, ?_⟩
  rw [around, List.cons_append, List.getElem?_cons_succ, List.getElem?_append_left, List.getElem?_map,
    hinside]
  · rfl
  · rw [List.length_map, length_ofRows]
    omega

end Box

/-! ## Backgrounds -/

/-- No cell has a background. -/
def Row.Unmarked (row : Row) : Prop := ∀ cell ∈ row, cell.style.background? = none

section Unmarked

theorem background_patch (below above : Style) :
    (below.patch above).background? = (above.background? <|> below.background?) := rfl

theorem Row.Unmarked.append {left right : Row} (hleft : left.Unmarked) (hright : right.Unmarked) :
    Row.Unmarked (left ++ right) := by
  intro cell hcell
  exact (List.mem_append.mp hcell).elim (hleft cell) (hright cell)

theorem Row.Unmarked.mono {left : Row} (h : row.Unmarked) (hsubset : ∀ cell ∈ left, cell ∈ row) :
    left.Unmarked :=
  fun cell hcell => h cell (hsubset cell hcell)

theorem unmarked_blank (hbase : base.background? = none) (width : Nat) :
    (Row.blank width base).Unmarked := by
  intro cell hcell
  rw [List.eq_of_mem_replicate hcell]
  exact hbase

theorem unmarked_ofGlyph {glyph : Glyph} (hbase : base.background? = none)
    (hglyph : glyph.style.background? = none) : (Row.ofGlyph base glyph).Unmarked := by
  unfold Row.ofGlyph
  split
  · exact fun cell hcell => absurd hcell List.not_mem_nil
  · intro cell hcell
    rcases List.mem_cons.mp hcell with rfl | hcell
    · rw [background_patch, hglyph, hbase]
      rfl
    · exact unmarked_blank hbase _ cell hcell

theorem unmarked_ofGlyphs {glyphs : List Glyph} (hbase : base.background? = none)
    (hglyphs : ∀ glyph ∈ glyphs, glyph.style.background? = none) (width offset : Nat) :
    (Row.ofGlyphs width base offset glyphs).Unmarked := by
  have hcells : Row.Unmarked (glyphs.flatMap (Row.ofGlyph base)) := by
    intro cell hcell
    obtain ⟨glyph, hglyph, hcell⟩ := List.mem_flatMap.mp hcell
    exact unmarked_ofGlyph hbase (hglyphs glyph hglyph) cell hcell
  refine Row.Unmarked.mono (((unmarked_blank hbase offset).append hcells).append
    (unmarked_blank hbase _)) fun cell hcell => List.mem_of_mem_take hcell

theorem prefix_clipSpan (width : Nat) (glyphs : List Glyph) : clipSpan width glyphs <+: glyphs := by
  induction glyphs generalizing width with
  | nil => exact List.prefix_rfl
  | cons glyph rest ih =>
      rw [clipSpan]
      split
      · exact List.nil_prefix
      · exact (List.prefix_cons_inj glyph).mpr (ih _)

theorem clipLine_go_sublist (width used : Nat) (glyphs : List Glyph) :
    (clipLine.go width used glyphs).Sublist glyphs := by
  induction glyphs generalizing used with
  | nil => exact List.Sublist.refl _
  | cons glyph rest ih =>
      rw [clipLine.go]
      split_ifs
      · exact (ih used).cons glyph
      · exact List.nil_sublist _
      · exact (ih _).cons_cons glyph

theorem mem_of_mem_clipSpans {spans : List Span} {glyph : Glyph}
    (h : glyph ∈ clipSpans width spans) : glyph ∈ spans.flatMap Span.glyphs := by
  induction spans generalizing width with
  | nil => exact h
  | cons span rest ih =>
      rw [List.flatMap_cons, List.mem_append]
      rcases List.mem_append.mp h with hfirst | hrest
      · exact .inl ((prefix_clipSpan _ _).subset hfirst)
      · exact .inr (ih hrest)

section Spans

variable {spans : List Span} (h : ∀ span ∈ spans, span.style.background? = none)

include h

theorem background_of_mem_glyphs {glyph : Glyph} (hglyph : glyph ∈ spans.flatMap Span.glyphs) :
    glyph.style.background? = none := by
  obtain ⟨span, hspan, hglyph⟩ := List.mem_flatMap.mp hglyph
  obtain ⟨_, -, rfl⟩ := List.mem_map.mp hglyph
  exact h span hspan

theorem unmarked_listRow (width : Nat) : (listRow width spans).Unmarked :=
  unmarked_ofGlyphs rfl (fun _ hglyph => background_of_mem_glyphs h (mem_of_mem_clipSpans hglyph)) _ _

theorem unmarked_lineRow (width : Nat) : (lineRow width spans).Unmarked :=
  unmarked_ofGlyphs rfl
    (fun _ hglyph => background_of_mem_glyphs h ((clipLine_go_sublist _ _ _).subset hglyph)) _ _

end Spans

theorem Row.Unmarked.put (h : row.Unmarked) (hstyle : style.background? = none) (column : Nat)
    (c : Char) : (row.put column c style).Unmarked := by
  intro cell hcell
  obtain ⟨place, hplace⟩ := List.mem_iff_getElem?.mp hcell
  rw [Row.put, List.getElem?_modify] at hplace
  cases hold : row[place]? with
  | none => simp [hold] at hplace
  | some old =>
      have hmem := h old (List.mem_of_getElem? hold)
      rw [hold] at hplace
      obtain rfl := Option.some_inj.mp hplace
      split
      · rw [background_patch, hstyle, hmem]
        rfl
      · exact hmem

theorem Row.Unmarked.sent (h : row.Unmarked) : row.sent.Unmarked := by
  suffices hfrom : ∀ covered, (Row.sentFrom covered row).Unmarked from hfrom false
  induction row with
  | nil => exact fun _ => h
  | cons cell rest ih =>
      intro covered
      obtain ⟨hcell, hrest⟩ := List.forall_mem_cons.mp h
      refine List.forall_mem_cons.mpr ⟨?_, ih hrest _⟩
      split
      · rfl
      · exact hcell

namespace Box

variable {box : Box} {inner : Panel} (hbase : box.base.background? = none)
  (hborder : box.borderStyle.background? = none)

include hbase hborder

theorem unmarked_edge (h : row.Unmarked) (width : Nat) (left right : Char) :
    (box.edge width left row right).Unmarked := by
  have hcell (c : Char) : Row.Unmarked [⟨[c], box.base.patch box.borderStyle⟩] := by
    intro cell hcell
    rw [List.mem_singleton.mp hcell, background_patch, hborder, hbase]
    rfl
  unfold edge
  split
  · exact fun cell hcell => absurd hcell List.not_mem_nil
  · exact hcell left
  · exact ((hcell left).append h).append (hcell right)

theorem unmarked_rule (width : Nat) : (box.rule width).Unmarked := by
  intro cell hcell
  rw [List.eq_of_mem_replicate hcell, background_patch, hborder, hbase]
  rfl

theorem unmarked_top (width : Nat) : (box.top width).Unmarked := by
  have hedge : (box.edge width box.border.topLeft (box.rule width) box.border.topRight).Unmarked :=
    unmarked_edge hbase hborder (unmarked_rule hbase hborder width) width _ _
  unfold top withTitle
  refine Row.Unmarked.append (Row.Unmarked.append ?_ ?_) ?_
  · exact hedge.mono fun _ => List.mem_of_mem_take
  · intro cell hcell
    obtain ⟨c, -, rfl⟩ := List.mem_map.mp hcell
    rw [background_patch, hborder, hbase]
    rfl
  · exact hedge.mono fun _ => List.mem_of_mem_drop

theorem unmarked_bottom (width : Nat) : (box.bottom width).Unmarked :=
  unmarked_edge hbase hborder (unmarked_rule hbase hborder width) width _ _

/-- A box puts backgrounds nowhere. -/
theorem unmarked_around {place : Nat} (hrow : (box.around width height inner)[place]? = some row)
    (hinner : ∀ i inside, place = i + 1 → inner[i]? = some inside → inside.Unmarked) :
    row.Unmarked := by
  unfold around at hrow
  split at hrow
  · simp at hrow
  · rw [List.mem_singleton.mp (List.mem_of_getElem? hrow)]
    exact unmarked_top hbase hborder width
  · rename_i inside
    cases place with
    | zero =>
        obtain rfl := Option.some_inj.mp hrow
        exact unmarked_top hbase hborder width
    | succ i =>
        rw [List.cons_append, List.getElem?_cons_succ, List.getElem?_append] at hrow
        split at hrow
        · rw [List.getElem?_map] at hrow
          obtain ⟨content, hcontent, rfl⟩ := Option.map_eq_some_iff.mp hrow
          refine unmarked_edge hbase hborder ?_ width _ _
          rw [Panel.ofRows, List.getElem?_take] at hcontent
          split at hcontent
          · rw [List.getElem?_append] at hcontent
            split at hcontent
            · exact hinner i content rfl hcontent
            · rw [List.eq_of_mem_replicate (List.mem_of_getElem? hcontent)]
              exact unmarked_blank hbase _
          · cases hcontent
        · rw [List.mem_singleton.mp (List.mem_of_getElem? hrow)]
          exact unmarked_bottom hbase hborder width

end Box

end Unmarked

end Reckoner.Terminal
