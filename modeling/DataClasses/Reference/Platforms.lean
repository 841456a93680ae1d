import DataClasses.Reference.Assembly
import DataClasses.Settings.Basic

/-!
# Libraries of the platforms

What each platform exports beyond the libraries that every compilation knows. A later
platform of the unified line has all that the earlier ones have.
-/

set_option autoImplicit false

namespace DataClasses.Assembly

def netStandard20 : Assembly :=
  { name := "netstandard"
    version := "2.0.0.0"
    namespaces :=
      [⟨"System.Numerics",
        ["BigInteger", "Complex", "Vector2", "Vector3"]⟩,
       ⟨"System.Xml.Serialization",
        ["XmlArrayAttribute", "XmlArrayItemAttribute", "XmlAttributeAttribute",
         "XmlElementAttribute", "XmlEnumAttribute", "XmlIgnoreAttribute", "XmlRootAttribute",
         "XmlTextAttribute", "XmlTypeAttribute"]⟩]
    source := "builtin:refs/netstandard2.0/netstandard.toml" }

def netStandard21 : Assembly :=
  { name := "netstandard"
    version := "2.1.0.0"
    namespaces :=
      [⟨"System",
        ["HashCode", "Index", "Memory`1", "Range", "ReadOnlyMemory`1", "ReadOnlySpan`1",
         "Span`1"]⟩,
       ⟨"System.Collections.Generic",
        ["IAsyncEnumerable`1", "IAsyncEnumerator`1"]⟩,
       ⟨"System.Numerics",
        ["BigInteger", "Complex", "Vector2", "Vector3"]⟩,
       ⟨"System.Threading.Tasks",
        ["ValueTask", "ValueTask`1"]⟩,
       ⟨"System.Xml.Serialization",
        ["XmlArrayAttribute", "XmlArrayItemAttribute", "XmlAttributeAttribute",
         "XmlElementAttribute", "XmlEnumAttribute", "XmlIgnoreAttribute", "XmlRootAttribute",
         "XmlTextAttribute", "XmlTypeAttribute"]⟩]
    source := "builtin:refs/netstandard2.1/netstandard.toml" }

def mscorlib : Assembly :=
  { name := "mscorlib"
    version := "4.0.0.0"
    namespaces :=
      [⟨"System",
        ["AppDomain", "MarshalByRefObject", "ICloneable"]⟩,
       ⟨"System.Runtime.Serialization",
        ["IDeserializationCallback", "SerializationBinder"]⟩]
    source := "builtin:refs/net48/mscorlib.toml" }

def systemNumerics : Assembly :=
  { name := "System.Numerics"
    version := "4.0.0.0"
    namespaces :=
      [⟨"System.Numerics",
        ["BigInteger", "Complex"]⟩]
    source := "builtin:refs/net48/System.Numerics.toml" }

def systemXml : Assembly :=
  { name := "System.Xml"
    version := "4.0.0.0"
    namespaces :=
      [⟨"System.Xml",
        ["XmlDocument", "XmlElement", "XmlNode", "XmlReader", "XmlWriter"]⟩,
       ⟨"System.Xml.Serialization",
        ["XmlArrayAttribute", "XmlArrayItemAttribute", "XmlAttributeAttribute",
         "XmlElementAttribute", "XmlEnumAttribute", "XmlIgnoreAttribute", "XmlRootAttribute",
         "XmlSerializer", "XmlTextAttribute", "XmlTypeAttribute"]⟩]
    source := "builtin:refs/net48/System.Xml.toml" }

def coreLib6 : Assembly :=
  { name := "System.Private.CoreLib"
    version := "6.0.0.0"
    namespaces :=
      [⟨"System",
        ["DateOnly", "Half", "HashCode", "Index", "Memory`1", "Range", "ReadOnlyMemory`1",
         "ReadOnlySpan`1", "Span`1", "TimeOnly"]⟩,
       ⟨"System.Collections.Generic",
        ["IAsyncEnumerable`1", "IAsyncEnumerator`1", "PriorityQueue`2"]⟩,
       ⟨"System.Numerics",
        ["BigInteger", "Complex", "Vector2", "Vector3"]⟩,
       ⟨"System.Threading.Tasks",
        ["ValueTask", "ValueTask`1"]⟩,
       ⟨"System.Xml.Serialization",
        ["XmlArrayAttribute", "XmlArrayItemAttribute", "XmlAttributeAttribute",
         "XmlElementAttribute", "XmlEnumAttribute", "XmlIgnoreAttribute", "XmlRootAttribute",
         "XmlTextAttribute", "XmlTypeAttribute"]⟩]
    source := "builtin:refs/net6.0/System.Private.CoreLib.toml" }

def coreLib7 : Assembly :=
  { name := "System.Private.CoreLib"
    version := "7.0.0.0"
    namespaces :=
      [⟨"System",
        ["Int128", "UInt128"]⟩,
       ⟨"System.Diagnostics.CodeAnalysis",
        ["SetsRequiredMembersAttribute", "StringSyntaxAttribute"]⟩]
    source := "builtin:refs/net7.0/System.Private.CoreLib.toml" }

def immutable8 : Assembly :=
  { name := "System.Collections.Immutable"
    version := "8.0.0.0"
    namespaces :=
      [⟨"System.Collections.Frozen",
        ["FrozenDictionary`2", "FrozenSet`1"]⟩,
       ⟨"System.Collections.Immutable",
        ["ImmutableArray`1", "ImmutableDictionary`2", "ImmutableHashSet`1", "ImmutableList`1"]⟩]
    source := "builtin:refs/net8.0/System.Collections.Immutable.toml" }

def coreLib9 : Assembly :=
  { name := "System.Private.CoreLib"
    version := "9.0.0.0"
    namespaces :=
      [⟨"System.Threading",
        ["Lock"]⟩]
    source := "builtin:refs/net9.0/System.Private.CoreLib.toml" }

def ofRuntime : Runtime → List Assembly
  | .netStandard20 => [netStandard20]
  | .netStandard21 => [netStandard21]
  | .netFramework48 => [mscorlib, systemNumerics, systemXml]
  | .net60 => [coreLib6]
  | .net70 => [coreLib6, coreLib7]
  | .net80 => [coreLib6, coreLib7, immutable8]
  | .net90 => [coreLib6, coreLib7, immutable8, coreLib9]

end DataClasses.Assembly
