import OciWrapper.Text.Chars

namespace OciWrapper.Core

open OciWrapper.Text

def xmlEscapeChar (c : Char) : CString :=
  if c = '&' then "&amp;".toList
  else if c = '<' then "&lt;".toList
  else if c = '>' then "&gt;".toList
  else if c = '"' then "&quot;".toList
  else if c = '\'' then "&apos;".toList
  else [c]

def xmlEscape (input : CString) : CString := input.flatMap xmlEscapeChar

/-- `resultset_field_t`, when it is no BLOB. -/
structure ResultField where
  fieldName : CString
  fieldType : CString
  value : CString

/-- `xml_add_field`, while the element fits the buffer of `xml_append`. -/
def xmlAddField (field : ResultField) : CString :=
  "<field><field_name>".toList ++ xmlEscape field.fieldName ++
    "</field_name><field_type>".toList ++ xmlEscape field.fieldType ++
    "</field_type><field_value>".toList ++ xmlEscape field.value ++
    "</field_value></field>\n".toList

def xmlRow (number : Nat) (fields : List ResultField) : CString :=
  "<row number=\"".toList ++ Nat.toDigits 10 number ++ "\">\n".toList ++
    fields.flatMap xmlAddField ++ "</row>\n".toList

/-- `response_write_xml` for rows without BLOB columns. -/
def responseWriteXml (rows : List (List ResultField)) : CString :=
  "<resultset>\n".toList ++ (rows.zipIdx 1).flatMap (fun (fields, number) => xmlRow number fields) ++
    "</resultset>\n".toList

end OciWrapper.Core
