import ServiceBalancer.Text.Blank

/-! Whether and where traces are exported. -/
namespace ServiceBalancer.Telemetry

def endpointVariable : String := "OTEL_EXPORTER_OTLP_ENDPOINT"

def serviceName : String := "service-lb-controller"

/-- The endpoint that the variable's value names. A blank value names none. -/
def endpoint? (value : Option String) : Option String :=
  value.filter (fun endpoint => !(Text.trim endpoint).isEmpty)

end ServiceBalancer.Telemetry
