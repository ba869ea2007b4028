import Reckoner.Proofs.Terminal.Rows

/-! # The cells of a line

A line of text is cut at the end of its place. A glyph that is kept stands right behind
those in front of it, and it is drawn in the first of its columns. All other cells are
blank. -/

namespace Reckoner.Terminal

variable {width used place : Nat} {glyphs front back : List Glyph} {glyph : Glyph}
  {spans : List Span} {row : Row} {cell before : Cell}

/-- The columns that glyphs take in a line of this width. A glyph that is wider than the
whole line is left out. -/
def columnsIn (width : Nat) (glyphs : List Glyph) : Nat :=
  columns (glyphs.filter (·.width ≤ width))

/-- A line of this width has room for the glyph behind those in front of it. -/
structure HasRoom (width : Nat) (front : List Glyph) (glyph : Glyph) : Prop where
  wide : 0 < glyph.width
  fits : columnsIn width front + glyph.width ≤ width

theorem columnsIn_cons_of_le (h : glyph.width ≤ width) (front : List Glyph) :
    columnsIn width (glyph :: front) = glyph.width + columnsIn width front := by
  rw [columnsIn, List.filter_cons_of_pos (by simpa using h), columns, columnsIn]

theorem columnsIn_cons_of_lt (h : width < glyph.width) (front : List Glyph) :
    columnsIn width (glyph :: front) = columnsIn width front := by
  rw [columnsIn, List.filter_cons_of_neg (by simpa using h), columnsIn]

theorem columnsIn_append (width : Nat) (front back : List Glyph) :
    columnsIn width (front ++ back) = columnsIn width front + columnsIn width back := by
  rw [columnsIn, List.filter_append, columns_append, columnsIn, columnsIn]

/-! ## Which glyphs are kept -/

/-- What fits is kept. -/
theorem clipLine_go_append (h : used + columnsIn width front ≤ width) (back : List Glyph) :
    clipLine.go width used (front ++ back) =
      front.filter (·.width ≤ width) ++ clipLine.go width (used + columnsIn width front) back := by
  induction front generalizing used with
  | nil => rfl
  | cons glyph front ih =>
      rw [List.cons_append, clipLine.go]
      by_cases hwide : width < glyph.width
      · rw [columnsIn_cons_of_lt hwide] at h ⊢
        rw [if_pos hwide, ih h, List.filter_cons_of_neg (by simpa using hwide)]
      · have hle : glyph.width ≤ width := Nat.le_of_not_lt hwide
        rw [columnsIn_cons_of_le hle, ← Nat.add_assoc] at h ⊢
        rw [if_neg hwide, if_neg (by omega), ih h, List.filter_cons_of_pos (by simpa using hle),
          List.cons_append]

/-- What is kept has room. -/
theorem hasRoom_of_clipLine_go {left right : List Glyph}
    (h : clipLine.go width used glyphs = left ++ glyph :: right) :
    ∃ front back, glyphs = front ++ glyph :: back ∧ columnsIn width front = columns left ∧
      used + columnsIn width front + glyph.width ≤ width := by
  induction glyphs generalizing used left with
  | nil => simp [clipLine.go] at h
  | cons first rest ih =>
      rw [clipLine.go] at h
      split_ifs at h with hwide hend
      · obtain ⟨front, back, rfl, hleft, hfits⟩ := ih h
        refine ⟨first :: front, back, rfl, ?_⟩
        rw [columnsIn_cons_of_lt hwide]
        exact ⟨hleft, hfits⟩
      · simp at h
      · cases left with
        | nil =>
            obtain ⟨rfl, -⟩ := List.cons.inj h
            exact ⟨[], rest, rfl, rfl, Nat.le_of_not_lt hend⟩
        | cons other left =>
            obtain ⟨rfl, hrest⟩ := List.cons.inj h
            obtain ⟨front, back, rfl, hleft, hfits⟩ := ih hrest
            refine ⟨first :: front, back, rfl, ?_⟩
            rw [columnsIn_cons_of_le (Nat.le_of_not_lt hwide), hleft, columns]
            rw [hleft] at hfits
            exact ⟨rfl, by omega⟩

/-! ## The cells of glyphs -/

theorem ofGlyph_of_pos (h : 0 < glyph.width) : Row.ofGlyph .plain glyph =
    ⟨glyph.chars, glyph.style⟩ :: Row.blank (glyph.width - 1) .plain := by
  obtain ⟨covered, hcovered⟩ := Nat.exists_eq_succ_of_ne_zero (Nat.pos_iff_ne_zero.mp h)
  rw [Row.ofGlyph, hcovered, Style.plain_patch]
  rfl

theorem ofGlyph_of_zero (h : glyph.width = 0) : Row.ofGlyph .plain glyph = [] := by
  rw [Row.ofGlyph, h]

/-- Behind a glyph the next one is not covered. -/
theorem narrow_of_getLast?_ofGlyph (h : (Row.ofGlyph .plain glyph).getLast? = some cell) :
    Unicode.width cell.chars ≤ 1 := by
  rcases Nat.eq_zero_or_pos glyph.width with hzero | hpos
  · rw [ofGlyph_of_zero hzero] at h
    cases h
  · rw [ofGlyph_of_pos hpos] at h
    by_cases hone : glyph.width = 1
    · rw [hone] at h
      obtain rfl := Option.some_inj.mp h
      exact Nat.le_of_eq hone
    · obtain ⟨covered, hcovered⟩ : ∃ covered, glyph.width - 1 = covered + 1 :=
        ⟨glyph.width - 2, by omega⟩
      rw [hcovered, Row.blank, List.replicate_succ', ← List.cons_append,
        List.getLast?_concat] at h
      obtain rfl := Option.some_inj.mp h
      decide +kernel

theorem narrow_of_getLast?_cells (h : (glyphs.flatMap (Row.ofGlyph .plain)).getLast? = some cell) :
    Unicode.width cell.chars ≤ 1 := by
  induction glyphs with
  | nil => cases h
  | cons glyph rest ih =>
      rw [List.flatMap_cons, List.getLast?_append] at h
      cases hrest : (rest.flatMap (Row.ofGlyph .plain)).getLast? with
      | some last =>
          rw [hrest] at h
          exact ih (hrest.trans h)
      | none =>
          rw [hrest] at h
          exact narrow_of_getLast?_ofGlyph h

theorem of_getElem?_cells (h : (glyphs.flatMap (Row.ofGlyph .plain))[place]? = some cell) :
    cell = .blank .plain ∨ ∃ front glyph back, glyphs = front ++ glyph :: back ∧
      0 < glyph.width ∧ place = columns front ∧ cell = ⟨glyph.chars, glyph.style⟩ := by
  induction glyphs generalizing place with
  | nil => cases h
  | cons first rest ih =>
      rw [List.flatMap_cons, List.getElem?_append] at h
      split_ifs at h with hfirst
      · rw [length_ofGlyph] at hfirst
        rw [ofGlyph_of_pos (by omega)] at h
        cases place with
        | zero =>
            exact .inr ⟨[], first, rest, rfl, hfirst, rfl, (Option.some_inj.mp h).symm⟩
        | succ place =>
            exact .inl (List.eq_of_mem_replicate (List.mem_of_getElem? h))
      · rw [length_ofGlyph] at hfirst h
        obtain hblank | ⟨front, glyph, back, rfl, hpos, hplace, hcell⟩ := ih h
        · exact .inl hblank
        · refine .inr ⟨first :: front, glyph, back, rfl, hpos, ?_, hcell⟩
          rw [columns]
          omega

/-! ## The cells of a line -/

theorem lineRow_eq (width : Nat) (spans : List Span) : lineRow width spans =
    ((clipLine width (spans.flatMap Span.glyphs)).flatMap (Row.ofGlyph .plain) ++
      Row.blank (width - columns (clipLine width (spans.flatMap Span.glyphs))) .plain).take width := by
  simp only [lineRow, Row.ofGlyphs, Row.blank, List.replicate_zero, List.nil_append,
    length_flatMap_ofGlyph]

/-- The glyph and the end of the cells in front of it. -/
theorem prefix_lineRow (hspans : spans.flatMap Span.glyphs = front ++ glyph :: back)
    (hroom : HasRoom width front glyph) :
    (front.filter (·.width ≤ width)).flatMap (Row.ofGlyph .plain) ++ [⟨glyph.chars, glyph.style⟩] <+:
      lineRow width spans := by
  obtain ⟨hpos, hfits⟩ := hroom
  have hkept : clipLine width (spans.flatMap Span.glyphs) =
      front.filter (·.width ≤ width) ++
        glyph :: clipLine.go width (columnsIn width front + glyph.width) back := by
    rw [hspans, clipLine, clipLine_go_append (by omega), Nat.zero_add, clipLine.go, if_neg (by omega),
      if_neg (by omega)]
  rw [lineRow_eq, hkept, List.prefix_take_iff]
  constructor
  · rw [List.flatMap_append, List.flatMap_cons, ofGlyph_of_pos hpos]
    simp only [List.append_assoc, List.cons_append]
    exact (List.prefix_append_right_inj _).mpr ((List.prefix_cons_inj _).mpr List.nil_prefix)
  · rw [List.length_append, length_flatMap_ofGlyph]
    change columnsIn width front + 1 ≤ width
    omega

/-- A glyph for which there is room is drawn behind those in front of it. -/
theorem getElem?_lineRow (hspans : spans.flatMap Span.glyphs = front ++ glyph :: back)
    (hroom : HasRoom width front glyph) :
    (lineRow width spans)[columnsIn width front]? = some ⟨glyph.chars, glyph.style⟩ := by
  obtain ⟨more, hmore⟩ := prefix_lineRow hspans hroom
  have hlength : ((front.filter (·.width ≤ width)).flatMap (Row.ofGlyph .plain)).length =
      columnsIn width front := length_flatMap_ofGlyph _ _
  rw [← hmore, List.append_assoc, List.getElem?_append_right (by omega), hlength, Nat.sub_self]
  rfl

/-- No wide glyph reaches over the cell in which another is drawn. -/
theorem narrow_before (hspans : spans.flatMap Span.glyphs = front ++ glyph :: back)
    (hroom : HasRoom width front glyph) (hplace : place + 1 = columnsIn width front)
    (hbefore : (lineRow width spans)[place]? = some before) : Unicode.width before.chars ≤ 1 := by
  obtain ⟨more, hmore⟩ := prefix_lineRow hspans hroom
  have hlength : ((front.filter (·.width ≤ width)).flatMap (Row.ofGlyph .plain)).length =
      columnsIn width front := length_flatMap_ofGlyph _ _
  rw [← hmore, List.append_assoc, List.getElem?_append_left (by omega)] at hbefore
  have hlast : ((front.filter (·.width ≤ width)).flatMap (Row.ofGlyph .plain)).getLast? =
      some before := by
    rw [List.getLast?_eq_getElem?, hlength, ← hplace, Nat.add_sub_cancel, hbefore]
  exact narrow_of_getLast?_cells hlast

/-- A cell of a line is blank, or a glyph for which there is room is drawn in it. -/
theorem of_getElem?_lineRow (h : (lineRow width spans)[place]? = some cell) :
    cell = .blank .plain ∨ ∃ front glyph back, spans.flatMap Span.glyphs = front ++ glyph :: back ∧
      HasRoom width front glyph ∧ place = columnsIn width front ∧
      cell = ⟨glyph.chars, glyph.style⟩ := by
  rw [lineRow_eq, List.getElem?_take] at h
  split_ifs at h
  rw [List.getElem?_append] at h
  split_ifs at h
  · obtain hblank | ⟨left, glyph, right, hkept, hpos, hplace, hcell⟩ := of_getElem?_cells h
    · exact .inl hblank
    · obtain ⟨front, back, hspans, hleft, hfits⟩ := hasRoom_of_clipLine_go hkept
      rw [Nat.zero_add] at hfits
      exact .inr ⟨front, glyph, back, hspans, ⟨hpos, hfits⟩, hplace.trans hleft.symm, hcell⟩
  · exact .inl (List.eq_of_mem_replicate (List.mem_of_getElem? h))

theorem getElem?_put_of_ne {column : Nat} (h : place ≠ column) (row : Row) (c : Char)
    (style : Style) : (row.put column c style)[place]? = row[place]? :=
  List.getElem?_modify_ne _ _ h.symm

/-! ## What is sent -/

/-- A cell that is sent is one of the row, or blank. -/
theorem of_getElem?_sent (h : row.sent[place]? = some cell) :
    cell = .blank .plain ∨ row[place]? = some cell := by
  suffices hfrom : ∀ covered, (Row.sentFrom covered row)[place]? = some cell →
      cell = .blank .plain ∨ row[place]? = some cell from hfrom false h
  clear h
  induction row generalizing place with
  | nil => exact fun _ h => .inr h
  | cons first rest ih =>
      intro covered h
      cases place with
      | zero =>
          cases covered with
          | true => exact .inl (Option.some_inj.mp h).symm
          | false => exact .inr h
      | succ place => exact ih _ h

/-- A cell is sent unless the one in front of it holds a wide glyph. -/
theorem getElem?_sent_succ (hbefore : row[place]? = some before) (hcell : row[place + 1]? = some cell) :
    row.sent[place + 1]? =
      some (if 1 < Unicode.width before.chars then .blank .plain else cell) := by
  suffices hfrom : ∀ covered, (Row.sentFrom covered row)[place + 1]? =
      some (if 1 < Unicode.width before.chars then .blank .plain else cell) from hfrom false
  induction place generalizing row with
  | zero =>
      intro covered
      obtain ⟨rest, rfl⟩ := List.head?_eq_some_iff.mp (List.head?_eq_getElem?.trans hbefore)
      cases rest with
      | nil => cases hcell
      | cons next rest =>
          obtain rfl := Option.some_inj.mp hcell
          simp [Row.sentFrom]
  | succ place ih =>
      intro covered
      cases row with
      | nil => cases hcell
      | cons first rest => exact ih hbefore hcell _

end Reckoner.Terminal
