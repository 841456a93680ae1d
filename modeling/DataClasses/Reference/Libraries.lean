import DataClasses.Reference.Assembly

/-!
# Libraries that come with the program

The libraries that every compilation knows, and the two JSON libraries.
-/

set_option autoImplicit false

namespace DataClasses.Assembly

def systemRuntime : Assembly :=
  { name := "System.Runtime"
    version := "4.2.2.0"
    namespaces :=
      [⟨"System",
        ["Action", "Action`1", "Action`2", "Action`3", "Action`4", "ArgumentException",
         "ArgumentNullException", "ArgumentOutOfRangeException", "Array", "Attribute",
         "AttributeTargets", "AttributeUsageAttribute", "Boolean", "Byte", "Char",
         "CLSCompliantAttribute", "Convert", "DateTime", "DateTimeKind", "DateTimeOffset",
         "DayOfWeek", "Decimal", "Delegate", "Double", "Enum", "Environment", "EventArgs",
         "EventHandler", "EventHandler`1", "Exception", "FlagsAttribute", "FormatException",
         "Func`1", "Func`2", "Func`3", "Func`4", "Func`5", "Guid", "IComparable",
         "IComparable`1", "IConvertible", "IDisposable", "IEquatable`1", "IFormatProvider",
         "IFormattable", "Int16", "Int32", "Int64", "IntPtr", "InvalidCastException",
         "InvalidOperationException", "Lazy`1", "Math", "NonSerializedAttribute",
         "NotImplementedException", "NotSupportedException", "Nullable`1",
         "NullReferenceException", "Object", "ObsoleteAttribute", "Predicate`1", "Random",
         "SByte", "SerializableAttribute", "Single", "String", "StringComparer",
         "StringComparison", "TimeSpan", "TimeZoneInfo", "Tuple`1", "Tuple`2", "Tuple`3",
         "Type", "UInt16", "UInt32", "UInt64", "UIntPtr", "Uri", "UriKind", "ValueTuple`1",
         "ValueTuple`2", "ValueTuple`3", "ValueType", "Version", "Void"]⟩,
       ⟨"System.Collections",
        ["ICollection", "IComparer", "IDictionary", "IEnumerable", "IEnumerator",
         "IEqualityComparer", "IList"]⟩,
       ⟨"System.Collections.Generic",
        ["ICollection`1", "IComparer`1", "IDictionary`2", "IEnumerable`1", "IEnumerator`1",
         "IEqualityComparer`1", "IList`1", "IReadOnlyCollection`1", "IReadOnlyDictionary`2",
         "IReadOnlyList`1", "ISet`1", "KeyNotFoundException", "KeyValuePair`2"]⟩,
       ⟨"System.Collections.ObjectModel",
        ["Collection`1", "ReadOnlyCollection`1", "ReadOnlyDictionary`2"]⟩,
       ⟨"System.ComponentModel",
        ["EditorBrowsableAttribute", "EditorBrowsableState"]⟩,
       ⟨"System.Globalization",
        ["CultureInfo", "DateTimeStyles", "NumberStyles"]⟩,
       ⟨"System.IO",
        ["Stream", "TextReader", "TextWriter", "IOException"]⟩,
       ⟨"System.Runtime.CompilerServices",
        ["CallerMemberNameAttribute", "CompilerGeneratedAttribute",
         "InternalsVisibleToAttribute"]⟩,
       ⟨"System.Runtime.Serialization",
        ["ISerializable", "SerializationInfo", "StreamingContext", "OnDeserializedAttribute",
         "OnSerializingAttribute"]⟩,
       ⟨"System.Text",
        ["Encoding", "StringBuilder"]⟩,
       ⟨"System.Threading",
        ["CancellationToken", "CancellationTokenSource", "Interlocked", "Monitor"]⟩,
       ⟨"System.Threading.Tasks",
        ["Task", "Task`1", "TaskCompletionSource`1"]⟩]
    source := "builtin:refs/System.Runtime.toml" }

def systemCollections : Assembly :=
  { name := "System.Collections"
    version := "4.1.2.0"
    namespaces :=
      [⟨"System.Collections",
        ["BitArray", "StructuralComparisons"]⟩,
       ⟨"System.Collections.Generic",
        ["Comparer`1", "Dictionary`2", "EqualityComparer`1", "HashSet`1", "LinkedList`1",
         "LinkedListNode`1", "List`1", "Queue`1", "SortedDictionary`2", "SortedList`2",
         "SortedSet`1", "Stack`1"]⟩]
    source := "builtin:refs/System.Collections.toml" }

def systemLinq : Assembly :=
  { name := "System.Linq"
    version := "4.2.2.0"
    namespaces :=
      [⟨"System.Linq",
        ["Enumerable", "IGrouping`2", "ILookup`2", "IOrderedEnumerable`1", "Lookup`2"]⟩]
    source := "builtin:refs/System.Linq.toml" }

def systemObjectModel : Assembly :=
  { name := "System.ObjectModel"
    version := "4.1.2.0"
    namespaces :=
      [⟨"System.Collections.ObjectModel",
        ["KeyedCollection`2", "ObservableCollection`1", "ReadOnlyObservableCollection`1"]⟩,
       ⟨"System.Collections.Specialized",
        ["INotifyCollectionChanged", "NotifyCollectionChangedAction",
         "NotifyCollectionChangedEventArgs", "NotifyCollectionChangedEventHandler"]⟩,
       ⟨"System.ComponentModel",
        ["INotifyPropertyChanged", "INotifyPropertyChanging", "PropertyChangedEventArgs",
         "PropertyChangedEventHandler", "PropertyChangingEventArgs",
         "PropertyChangingEventHandler"]⟩]
    source := "builtin:refs/System.ObjectModel.toml" }

def serializationPrimitives : Assembly :=
  { name := "System.Runtime.Serialization.Primitives"
    version := "4.2.2.0"
    namespaces :=
      [⟨"System.Runtime.Serialization",
        ["CollectionDataContractAttribute", "DataContractAttribute", "DataMemberAttribute",
         "EnumMemberAttribute", "IgnoreDataMemberAttribute", "KnownTypeAttribute",
         "SerializationException"]⟩]
    source := "builtin:refs/System.Runtime.Serialization.Primitives.toml" }

def componentModelPrimitives : Assembly :=
  { name := "System.ComponentModel.Primitives"
    version := "4.2.1.0"
    namespaces :=
      [⟨"System.ComponentModel",
        ["BrowsableAttribute", "CategoryAttribute", "DefaultValueAttribute",
         "DescriptionAttribute", "DesignerCategoryAttribute", "DisplayNameAttribute",
         "ReadOnlyAttribute"]⟩]
    source := "builtin:refs/System.ComponentModel.Primitives.toml" }

def newtonsoftJson : Assembly :=
  { name := "Newtonsoft.Json"
    version := "13.0.0.0"
    namespaces :=
      [⟨"Newtonsoft.Json",
        ["DateFormatHandling", "DateTimeZoneHandling", "DefaultValueHandling", "Formatting",
         "JsonArrayAttribute", "JsonConstructorAttribute", "JsonConvert", "JsonConverter",
         "JsonConverter`1", "JsonConverterAttribute", "JsonException",
         "JsonExtensionDataAttribute", "JsonIgnoreAttribute", "JsonObjectAttribute",
         "JsonPropertyAttribute", "JsonReader", "JsonRequiredAttribute", "JsonSerializer",
         "JsonSerializerSettings", "JsonWriter", "MissingMemberHandling", "NullValueHandling",
         "ReferenceLoopHandling", "Required", "TypeNameHandling"]⟩,
       ⟨"Newtonsoft.Json.Converters",
        ["IsoDateTimeConverter", "StringEnumConverter", "UnixDateTimeConverter"]⟩,
       ⟨"Newtonsoft.Json.Linq",
        ["JArray", "JObject", "JProperty", "JToken", "JTokenType", "JValue"]⟩,
       ⟨"Newtonsoft.Json.Serialization",
        ["CamelCaseNamingStrategy", "DefaultContractResolver", "IContractResolver",
         "JsonProperty", "NamingStrategy", "OnErrorAttribute", "SnakeCaseNamingStrategy"]⟩]
    source := "builtin:refs/Newtonsoft.Json.toml" }

def systemTextJson : Assembly :=
  { name := "System.Text.Json"
    version := "8.0.0.0"
    namespaces :=
      [⟨"System.Text.Json",
        ["JsonCommentHandling", "JsonDocument", "JsonElement", "JsonException",
         "JsonNamingPolicy", "JsonSerializer", "JsonSerializerDefaults",
         "JsonSerializerOptions", "JsonValueKind", "Utf8JsonReader", "Utf8JsonWriter"]⟩,
       ⟨"System.Text.Json.Nodes",
        ["JsonArray", "JsonNode", "JsonObject", "JsonValue"]⟩,
       ⟨"System.Text.Json.Serialization",
        ["JsonConstructorAttribute", "JsonConverter", "JsonConverter`1",
         "JsonConverterAttribute", "JsonConverterFactory", "JsonDerivedTypeAttribute",
         "JsonExtensionDataAttribute", "JsonIgnoreAttribute", "JsonIgnoreCondition",
         "JsonIncludeAttribute", "JsonNumberHandling", "JsonNumberHandlingAttribute",
         "JsonPolymorphicAttribute", "JsonPropertyNameAttribute",
         "JsonPropertyOrderAttribute", "JsonRequiredAttribute", "JsonSerializableAttribute",
         "JsonSerializerContext", "JsonStringEnumConverter", "JsonStringEnumConverter`1",
         "ReferenceHandler"]⟩]
    source := "builtin:refs/System.Text.Json.toml" }

def libraries : List Assembly :=
  [systemRuntime, systemCollections, systemLinq, systemObjectModel, serializationPrimitives,
   componentModelPrimitives, newtonsoftJson, systemTextJson]

end DataClasses.Assembly
